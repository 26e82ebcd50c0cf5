import RestClient.Proofs.Http.Redaction
import RestClient.Proofs.Session.Settings

namespace RestClient

namespace Config

/-- The same setting, or two interchangeable tokens. -/
inductive Setting.Twins : Setting → Setting → Prop
  | baseUrl (text : String) : Twins (.baseUrl text) (.baseUrl text)
  | userAgentPrefix (text : String) : Twins (.userAgentPrefix text) (.userAgentPrefix text)
  | token {text text' : String} (h : AccessToken.Interchangeable text text') :
      Twins (.token text) (.token text')

structure Draft.Twins (d d' : Draft) : Prop where
  baseUrl : d.baseUrl = d'.baseUrl
  userAgentPrefix : d.userAgentPrefix = d'.userAgentPrefix
  token : AccessToken.Twins d.token d'.token

structure Twins (c c' : Config) : Prop where
  baseUrl : c.baseUrl = c'.baseUrl
  userAgentPrefix : c.userAgentPrefix = c'.userAgentPrefix
  token : AccessToken.Twins c.token c'.token

end Config

theorem AccessToken.alike_ofText {text text' : String} (h : Interchangeable text text') :
    Except.Alike (fun token token' => Twins (some token) (some token')) (ofText text)
      (ofText text') := by
  rw [ofText, ofText]
  by_cases hempty : text = ""
  · rw [dif_pos hempty, dif_pos (h.empty.mp hempty)]
    exact .error _
  · rw [dif_neg hempty, dif_neg (mt h.empty.mpr hempty)]
    exact .ok (.some h.legal h.legal')

namespace Config

theorem Draft.alike_set {d d' : Draft} {setting setting' : Setting} (h : d.Twins d')
    (hsetting : setting.Twins setting') :
    Except.Alike Draft.Twins (d.set setting) (d'.set setting') := by
  cases hsetting with
  | baseUrl text =>
    simp only [Draft.set]
    cases BaseUrl.ofText text with
    | error e => exact .error e
    | ok base => exact .ok ⟨rfl, h.userAgentPrefix, h.token⟩
  | userAgentPrefix text => exact .ok ⟨h.baseUrl, rfl, h.token⟩
  | @token text text' htext =>
    have htoken := AccessToken.alike_ofText htext
    simp only [Draft.set]
    generalize AccessToken.ofText text = x, AccessToken.ofText text' = y at htoken ⊢
    cases htoken with
    | error e => exact .error e
    | ok htwins => exact .ok ⟨h.baseUrl, h.userAgentPrefix, htwins⟩

theorem alike_ofSettings {settings settings' : List Setting}
    (h : List.Forall₂ Setting.Twins settings settings') :
    Except.Alike Twins (ofSettings settings) (ofSettings settings') := by
  have hdraft := Except.alike_foldlM (f := Draft.set) (g := Draft.set)
    (fun _ _ _ _ => Draft.alike_set) h (⟨rfl, rfl, .none⟩ : Draft.Twins {} {})
  rw [ofSettings, ofSettings]
  generalize settings.foldlM Draft.set {} = x, settings'.foldlM Draft.set {} = y at hdraft ⊢
  cases hdraft with
  | error e => exact .error e
  | @ok d d' htwins =>
    simp only [Except.ok_bind, Draft.build, htwins.baseUrl]
    cases d'.baseUrl with
    | none => exact .error _
    | some base => exact .ok ⟨rfl, htwins.userAgentPrefix, htwins.token⟩

end Config

theorem Connection.twins_ofConfig {c c' : Config} (h : c.Twins c') :
    Twins (ofConfig c) (ofConfig c') := by
  refine ⟨h.baseUrl, ?_, h.token⟩
  simp only [ofConfig, Config.userAgent, h.userAgentPrefix]

namespace Session

/-- The same step, or one that sets two interchangeable tokens. -/
inductive Step.Twins : Step → Step → Prop
  | setToken (handle : Nat) {text text' : String} (h : AccessToken.Interchangeable text text') :
      Twins (.setToken handle text) (.setToken handle text')
  | same {step : Step} (h : ∀ handle text, step ≠ .setToken handle text) : Twins step step

/-- The base URLs that the clients of all handles and resources report, and whether they have a
token. -/
def outlines (s : Session) : List (BaseUrl × Bool) × List (BaseUrl × Bool) :=
  let outline : BaseUrl × Option AccessToken → BaseUrl × Bool := fun (base, token) =>
    (base, token.isSome)
  (s.views.map outline, s.resourceViews.map outline)

/-- Sessions whose clients share connections that differ in their tokens alone. -/
structure Twins (s s' : Session) (c c' : Connection) : Prop where
  shared : Shared s c
  shared' : Shared s' c'
  connection : c.Twins c'
  clients : s.clients = s'.clients
  resources : s.resources = s'.resources

/-- Two outcomes that nothing but tokens tells apart. -/
def Matches (o o' : Outcome) : Prop :=
  (∃ c c', Twins o.1 o'.1 c c') ∧ o.2.redact = o'.2.redact

variable {s s' : Session} {c c' : Connection} {t t' : Transport}

theorem twins_ofConfig {k k' : Config} (h : k.Twins k') :
    Twins (ofConfig k) (ofConfig k') (.ofConfig k) (.ofConfig k') :=
  ⟨shared_ofConfig k, shared_ofConfig k', Connection.twins_ofConfig h, rfl, rfl⟩

namespace Twins

theorem answer (h : Twins s s' c c') (a : Answer) : Matches (s.answer a) (s'.answer a) :=
  ⟨⟨c, c', h⟩, rfl⟩

theorem refuse (h : Twins s s' c c') (e : Failure) : Matches (s.refuse e) (s'.refuse e) :=
  ⟨⟨c, c', h⟩, rfl⟩

theorem relay {ε α : Type} (h : Twins s s' c c') {x x' : Exchange ε α} (hx : x.redact = x'.redact)
    (failure : ε → Failure) (wrap : α → Answer) :
    Matches (s.relay x failure wrap) (s'.relay x' failure wrap) := by
  refine ⟨⟨c, c', h⟩, ?_⟩
  simp only [Session.relay, Exchange.redact_andThen, Exchange.redact_mapError, hx]

theorem onHandle (h : Twins s s' c c') (handle : Nat) {run run' : Client → Connection → Outcome}
    (hrun : Matches (run ⟨0⟩ c) (run' ⟨0⟩ c')) :
    Matches (s.onHandle handle run) (s'.onHandle handle run') := by
  rw [h.shared.onHandle, h.shared'.onHandle, h.clients]
  split
  · exact hrun
  · exact h.refuse _

theorem onResource (h : Twins s s' c c') (resource : Nat)
    {run run' : Resource → Connection → Outcome} (hrun : ∀ r, Matches (run r c) (run' r c')) :
    Matches (s.onResource resource run) (s'.onResource resource run') := by
  rw [h.shared.onResource, h.shared'.onResource, h.resources]
  split
  · exact h.refuse _
  · exact hrun _

/-- The sessions stay twins when their connections are replaced by twins. -/
theorem update (h : Twins s s' c c') {d d' : Connection} (hd : d.Twins d') :
    Twins (s.update ⟨0⟩ d) (s'.update ⟨0⟩ d') d d' := by
  rw [h.shared.update, h.shared'.update]
  exact ⟨⟨rfl, h.shared.clients, h.shared.resources⟩, ⟨rfl, h.shared'.clients, h.shared'.resources⟩,
    hd, h.clients, h.resources⟩

theorem addClient (h : Twins s s' c c') :
    Twins { s with clients := s.clients ++ [⟨0⟩] }
      { s' with clients := s'.clients ++ [⟨0⟩] } c c' :=
  ⟨⟨h.shared.connections, List.forall_mem_append.mpr ⟨h.shared.clients, by simp⟩,
      h.shared.resources⟩,
    ⟨h.shared'.connections, List.forall_mem_append.mpr ⟨h.shared'.clients, by simp⟩,
      h.shared'.resources⟩,
    h.connection, by rw [h.clients], h.resources⟩

theorem addResource (h : Twins s s' c c') (r : Resource) :
    Twins { s with resources := s.resources ++ [⟨⟨0⟩, r⟩] }
      { s' with resources := s'.resources ++ [⟨⟨0⟩, r⟩] } c c' :=
  ⟨⟨h.shared.connections, h.shared.clients,
      List.forall_mem_append.mpr ⟨h.shared.resources, by simp⟩⟩,
    ⟨h.shared'.connections, h.shared'.clients,
      List.forall_mem_append.mpr ⟨h.shared'.resources, by simp⟩⟩,
    h.connection, h.clients, by rw [h.resources]⟩

theorem outlines (h : Twins s s' c c') : s.outlines = s'.outlines := by
  have htoken : c.token.isSome = c'.token.isSome := by
    have htwins := h.connection.token
    generalize c.token = token, c'.token = token' at htwins ⊢
    cases htwins <;> rfl
  simp only [Session.outlines, views_of_shared h.shared, views_of_shared h.shared',
    resourceViews_of_shared h.shared, resourceViews_of_shared h.shared', List.map_replicate,
    h.clients, h.resources, h.connection.base, htoken]

end Twins

theorem matches_setToken (h : Twins s s' c c') (t t' : Transport) (handle : Nat)
    {text text' : String} (htext : AccessToken.Interchangeable text text') :
    Matches (s.step t (.setToken handle text)) (s'.step t' (.setToken handle text')) := by
  apply h.onHandle
  have htoken := AccessToken.alike_ofText htext
  generalize AccessToken.ofText text = x, AccessToken.ofText text' = x' at htoken ⊢
  cases htoken with
  | error e => exact h.refuse _
  | ok htwins => exact (h.update (h.connection.setToken htwins)).answer _

theorem matches_step (h : Twins s s' c c') (ht : t.Alike t') {step step' : Step}
    (hstep : step.Twins step') : Matches (s.step t step) (s'.step t' step') := by
  have hc := h.connection
  cases hstep with
  | setToken handle htext => exact matches_setToken h t t' handle htext
  | same hne =>
    cases step with
    | inspect => exact h.answer _
    | setToken handle text => exact absurd rfl (hne handle text)
    | clone handle =>
      have hlength : s.clients.length = s'.clients.length := by rw [h.clients]
      apply h.onHandle
      rw [hlength]
      exact h.addClient.answer _
    | setBase handle text =>
      apply h.onHandle
      cases BaseUrl.ofText text with
      | ok base => exact (h.update (hc.setBase base)).answer _
      | error e => exact h.refuse _
    | clearToken handle =>
      apply h.onHandle
      exact (h.update (hc.setToken .none)).answer _
    | login handle login password =>
      apply h.onHandle
      exact h.relay (Connection.redact_login hc ht login password) _ _
    | logout handle code =>
      apply h.onHandle
      exact h.relay (Connection.redact_logout hc ht code) _ _
    | send handle q =>
      apply h.onHandle
      exact h.relay (Connection.redact_send hc ht q) _ _
    | submit handle method path query body =>
      apply h.onHandle
      exact h.relay (Connection.redact_submit hc ht method path query body) _ _
    | build handle plan =>
      apply h.onHandle
      cases plan.build with
      | ok r => exact (h.addResource r).answer _
      | error e => exact h.refuse _
    | describe resource => exact h.onResource resource fun r => h.answer _
    | call resource invocation =>
      apply h.onResource
      intro r
      cases invocation.call with
      | ok call => exact h.relay (Connection.redact_fetch hc ht _) _ _
      | error e => exact h.refuse _
    | operate resource operation a =>
      apply h.onResource
      intro r
      cases r.operation operation with
      | ok o => exact h.relay (Connection.redact_fetch hc ht _) _ _
      | error e => exact h.refuse _

/-- The same step over transports that give the same replies, but for a token that is set. -/
def TwinSteps (p p' : Transport × Step) : Prop := p.1.Alike p'.1 ∧ p.2.Twins p'.2

theorem twins_run {steps steps' : List (Transport × Step)}
    (hsteps : List.Forall₂ TwinSteps steps steps') (h : Twins s s' c c') :
    (∃ d d', Twins (s.run steps).1 (s'.run steps').1 d d') ∧
      (s.run steps).2.map Exchange.redact = (s'.run steps').2.map Exchange.redact := by
  induction hsteps generalizing s s' c c' with
  | nil => exact ⟨⟨c, c', h⟩, rfl⟩
  | @cons p p' rest rest' hp _ ih =>
    obtain ⟨t, step⟩ := p
    obtain ⟨t', step'⟩ := p'
    obtain ⟨⟨d, d', hnext⟩, hexchange⟩ := matches_step h hp.1 hp.2
    obtain ⟨hend, hrest⟩ := ih hnext
    exact ⟨hend, congrArg₂ List.cons hexchange hrest⟩

/-- Runs that differ in their tokens alone, where each pair of tokens is interchangeable, are
refused or started alike. At each step they have the same result, send the same requests but for the
Authorization header, and report the same base URLs and whether a token is set. -/
theorem token_noninterference {settings settings' : List Config.Setting}
    (hsettings : List.Forall₂ Config.Setting.Twins settings settings')
    {steps steps' : List (Transport × Step)} (hsteps : List.Forall₂ TwinSteps steps steps') :
    Except.Alike (fun k k' =>
      ((ofConfig k).run steps).2.map Exchange.redact =
        ((ofConfig k').run steps').2.map Exchange.redact ∧
      ∀ n, ((ofConfig k).run (steps.take n)).1.outlines =
        ((ofConfig k').run (steps'.take n)).1.outlines)
      (Config.ofSettings settings) (Config.ofSettings settings') := by
  have hconfig := Config.alike_ofSettings hsettings
  generalize Config.ofSettings settings = x, Config.ofSettings settings' = x' at hconfig ⊢
  cases hconfig with
  | error e => exact .error e
  | ok htwins =>
    have hstart := twins_ofConfig htwins
    refine .ok ⟨(twins_run hsteps hstart).2, ?_⟩
    intro n
    obtain ⟨⟨d, d', hn⟩, -⟩ := twins_run (List.forall₂_take n hsteps) hstart
    exact hn.outlines

/-- Two tokens that are set in turn, the second one over another client, are told apart by nothing
but the two Authorization headers. -/
theorem two_tokens_noninterference :
    let settings (token : String) : List Config.Setting :=
      [.baseUrl "http://a.test/v1/", .token token, .userAgentPrefix "shop"]
    let t := Transport.canned BaseUrl.testAuthorities
      (some ⟨401, [("X-Request-Id", "7")], "\x7b\"error\":\"no\"\x7d"⟩)
    let steps (token : String) : List (Transport × Step) := [(t, .logout 0 "code"), (t, .clone 0),
      (t, .setToken 0 ""), (t, .setToken 1 token), (t, .submit 0 .get "/users" [] [])]
    ∃ k k', Config.ofSettings (settings "secret") = .ok k ∧
      Config.ofSettings (settings "a b") = .ok k' ∧
      ((ofConfig k).run (steps "second")).2.map Exchange.redact =
        ((ofConfig k').run (steps "é")).2.map Exchange.redact ∧
      ((ofConfig k).run (steps "second")).2.flatMap
        (·.sent.map (·.headers.lookup "authorization")) = [some "secret", some "second"] ∧
      ((ofConfig k').run (steps "é")).2.flatMap (·.sent.map (·.headers.lookup "authorization")) =
        [some "a b", some "é"] := by
  intro settings t steps
  have hk : Config.ofSettings (settings "secret") =
      .ok ⟨⟨"http", "a.test/v1"⟩, some ⟨"secret", by decide⟩, some "shop"⟩ := by
    decide +kernel
  have hk' : Config.ofSettings (settings "a b") =
      .ok ⟨⟨"http", "a.test/v1"⟩, some ⟨"a b", by decide⟩, some "shop"⟩ := by
    decide +kernel
  have hstart : AccessToken.Interchangeable "secret" "a b" :=
    ⟨by decide, by decide +kernel, by decide +kernel⟩
  have hempty : AccessToken.Interchangeable "" "" :=
    ⟨by decide, by decide +kernel, by decide +kernel⟩
  have hlater : AccessToken.Interchangeable "second" "é" :=
    ⟨by decide, by decide +kernel, by decide +kernel⟩
  have hsettings : List.Forall₂ Config.Setting.Twins (settings "secret") (settings "a b") :=
    .cons (.baseUrl _) (.cons (.token hstart) (.cons (.userAgentPrefix _) .nil))
  have ht : t.Alike t := by
    intro w w' h
    have hauthority : w.authority = w'.authority := congrArg (·.authority) h
    simp only [t, Transport.canned, hauthority]
  have hsteps : List.Forall₂ TwinSteps (steps "second") (steps "é") :=
    .cons ⟨ht, .same (by simp)⟩ (.cons ⟨ht, .same (by simp)⟩ (.cons ⟨ht, .setToken 0 hempty⟩
      (.cons ⟨ht, .setToken 1 hlater⟩ (.cons ⟨ht, .same (by simp)⟩ .nil))))
  have hruns := token_noninterference hsettings hsteps
  rw [hk, hk'] at hruns
  cases hruns with
  | ok h => exact ⟨_, _, hk, hk', h.1, by decide +kernel, by decide +kernel⟩

end Session
end RestClient
