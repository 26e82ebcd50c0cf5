import RestClient.Proofs.Session.Dispatch

namespace RestClient

/-- The texts that a configuration puts into headers are legal there. -/
structure Wire.LegalSettings (token : Option AccessToken) (userAgentPrefix : Option String) :
    Prop where
  token : ∀ tok, token = some tok → isHeaderValue tok.text
  userAgentPrefix : ∀ text, userAgentPrefix = some text → isHeaderValue text

namespace Session

variable {s : Session} {c : Connection} {step : Step}

theorem step_of_illegal (hs : Shared s c) (hb : s.Built) (t : Transport) (hstep : step.Regular)
    (hcall : step.isCall) (hadmits : s.Admits step)
    (hlegal : ¬ (Wire.isHeaderValue c.userAgent ∧
      ∀ tok, c.token = some tok → Wire.isHeaderValue tok.text)) :
    (s.step t step).2 = .silent (.error (step.failure .network)) := by
  rcases relays_step hs hb t hcall with ⟨hlacks, -, -⟩ | @⟨q, -, hq, hv, hx⟩
  · exact absurd hadmits hlacks
  · have hplain := (plain_of_request hb hstep hq).1
    have hheaders := mt (Connection.all_isHeader_headers_iff hplain).mp hlegal
    rw [hx, relayed, Connection.send_of_illegal hv fun h => hheaders h.1]
    rfl

/-- After any run on a test service, a call that lacks nothing dispatches its request under the
token that was accepted, if the token and the prefix of the user agent are legal in headers; if not,
it sends nothing and ends as a failure of the network, whatever the transport would do. -/
theorem accepted_settings_dispatch (k : Config) (before : List (Transport × Step)) {step : Step}
    (hstep : step.Regular) (hcall : step.isCall) {t : Transport}
    (ht : t.Reaches BaseUrl.testAuthorities) :
    let s := ((ofConfig k).run before).1
    let es := (ofConfig k).events before
    let base := lastSet Event.base? k.baseUrl es
    let token := lastSet Event.token? k.token es
    let x := (s.step t step).2
    base.IsTest → s.Admits step →
      (Wire.LegalSettings token k.userAgentPrefix →
        (∀ r call, s.called? step = some (r, call) → r.basePath.startsWith "/") →
        ∃ q, s.request? step = some q ∧ x.Dispatches t base token q (step.failure .network)) ∧
      (¬ Wire.LegalSettings token k.userAgentPrefix →
        x.sent = [] ∧ x.result = .error (step.failure .network)) := by
  intro s es base token x htest hadmits
  have hshared : Shared s (configured (.ofConfig k) es) := shared_run (shared_ofConfig k) before
  have hbuilt : s.Built := built_run k before
  have huserAgent := Config.isHeaderValue_userAgent_iff k
  refine ⟨fun hlegal hbase => ?_, fun hillegal => ?_⟩
  · have hsendable : (configured (.ofConfig k) es).Sendable :=
      ⟨htest, huserAgent.mpr hlegal.userAgentPrefix, hlegal.token⟩
    exact dispatches_of_sendable hshared hbuilt hsendable ht hstep hcall hadmits hbase
  · have hx : x = .silent (.error (step.failure .network)) :=
      step_of_illegal hshared hbuilt t hstep hcall hadmits fun h =>
        hillegal ⟨h.2, huserAgent.mp h.1⟩
    rw [hx]
    exact ⟨rfl, rfl⟩

/-- A client whose token breaks a line sends no order, until it is given another token. -/
theorem another_token_dispatch :
    let k : Config := ⟨⟨"http", "a.test"⟩, some ⟨"a\nb", by decide⟩, some "shop"⟩
    let plan : Resource.Plan := { basePath := "/orders", basics := [.list] }
    let t := Transport.canned BaseUrl.testAuthorities (some ⟨204, [], ""⟩)
    let before := [(t, Step.build 0 plan)]
    let later := before ++ [(t, Step.setToken 0 "\tkey é")]
    let step : Step := .operate 0 "list" .empty
    let x := (((ofConfig k).run before).1.step t step).2
    let x' := (((ofConfig k).run later).1.step t step).2
    x.sent = [] ∧ x.result = .error (.api (.transport .network)) ∧
      ∃ w, x'.sent = [w] ∧
        w.headers.filter (·.1 == "authorization") = [("authorization", "\tkey é")] := by
  intro k plan t before later step x x'
  have ht : t.Reaches BaseUrl.testAuthorities := Transport.reaches_canned _ _
  have htest : (⟨"http", "a.test"⟩ : BaseUrl).IsTest := ⟨rfl, by decide +kernel⟩
  have hbase : ∀ steps ∈ [before, later],
      lastSet Event.base? k.baseUrl ((ofConfig k).events steps) = ⟨"http", "a.test"⟩ := by
    decide +kernel
  have hbroken : lastSet Event.token? k.token ((ofConfig k).events before) =
      some ⟨"a\nb", by decide⟩ := by
    decide +kernel
  have hkey : lastSet Event.token? k.token ((ofConfig k).events later) =
      some ⟨"\tkey é", by decide⟩ := by
    decide +kernel
  have hillegal : ¬ Wire.LegalSettings (some ⟨"a\nb", by decide⟩) k.userAgentPrefix := fun h =>
    absurd (h.token _ rfl) (by decide +kernel)
  have hlegal : Wire.LegalSettings (some ⟨"\tkey é", by decide⟩) k.userAgentPrefix := by
    constructor <;> (rintro _ ⟨⟩; decide +kernel)
  have hslash (r : Resource) (call : Call)
      (h : ((ofConfig k).run later).1.called? step = some (r, call)) :
      r.basePath.startsWith "/" := by
    have horders : (((ofConfig k).run later).1.called? step).map (·.1.basePath) =
        some "/orders" := by
      decide +kernel
    rw [h] at horders
    have hpath : r.basePath = "/orders" := Option.some.inj horders
    rw [hpath]
    decide +kernel
  have hstep : step.Regular := trivial
  have hadmits (steps : List (Transport × Step)) :=
    admits_of_not_refused k steps t (show step.isCall from rfl)
  have hfits : (((ofConfig k).run later).1.request? step).map
      (fun q => decide (q.Fits ⟨"http", "a.test"⟩)) = some true := by
    decide +kernel
  obtain ⟨-, hblocked⟩ := accepted_settings_dispatch k before hstep rfl ht
    (hbase before (by simp) ▸ htest) (hadmits before (by decide +kernel))
  obtain ⟨hsends, -⟩ := accepted_settings_dispatch k later hstep rfl ht
    (hbase later (by simp) ▸ htest) (hadmits later (by decide +kernel))
  obtain ⟨hsilent, hnetwork⟩ := hblocked (hbroken ▸ hillegal)
  obtain ⟨q, hq, hdispatches⟩ := hsends (hkey ▸ hlegal) hslash
  rw [hbase later (by simp)] at hdispatches
  rw [hq, Option.map_some, Option.some.injEq, decide_eq_true_iff] at hfits
  obtain ⟨w, hsent, hcarries⟩ := hdispatches.exists_sent_canned hfits
  exact ⟨hsilent, hnetwork, w, hsent, hcarries.authorization.trans (by rw [hkey]; rfl)⟩

/-- A line break is accepted in a token and in a prefix, and either of them keeps a client from
sending anything, whatever the transport would do. -/
theorem line_break_blocks_sending :
    let logout : Step := .logout 0 "code"
    ∀ settings ∈ [[Config.Setting.baseUrl "http://a.test", .token "a\nb"],
      [.baseUrl "http://b.test", .userAgentPrefix "my\nshop", .token "secret"]],
    ∃ k, Config.ofSettings settings = .ok k ∧ k.baseUrl.IsTest ∧ ∀ t,
      let x := ((ofConfig k).step t logout).2
      refused x = false ∧ x.sent = [] ∧ x.result = .error (.api (.transport .network)) := by
  intro logout
  rw [List.forall_mem_cons, List.forall_mem_singleton]
  refine ⟨⟨⟨⟨"http", "a.test"⟩, some ⟨"a\nb", by decide⟩, none⟩, by decide +kernel,
    ⟨rfl, by decide +kernel⟩, fun t => ⟨rfl, rfl, rfl⟩⟩,
    ⟨⟨"http", "b.test"⟩, some ⟨"secret", by decide⟩, some "my\nshop"⟩, by decide +kernel,
    ⟨rfl, by decide +kernel⟩, fun t => ⟨rfl, rfl, rfl⟩⟩

end Session
end RestClient
