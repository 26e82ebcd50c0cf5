import RestClient.Proofs.Session.Refusals

namespace RestClient

/-- The settings of a configuration are those of a test service, and can stand in headers. -/
structure Config.Regular (c : Config) : Prop where
  base : c.baseUrl.IsTest
  token : ∀ token, c.token = some token → Wire.isHeaderValue token.text
  userAgentPrefix : ∀ text, c.userAgentPrefix = some text → Wire.isHeaderValue text

theorem Wire.isHeaderValue_append (s s' : String) :
    isHeaderValue (s ++ s') = (isHeaderValue s && isHeaderValue s') := by
  rw [isHeaderValue, String.toList_append, List.all_append, ← isHeaderValue, ← isHeaderValue]

theorem Config.isHeaderValue_userAgent_iff (c : Config) :
    Wire.isHeaderValue c.userAgent ↔
      ∀ text, c.userAgentPrefix = some text → Wire.isHeaderValue text := by
  have hproduct : Wire.isHeaderValue "Pact API Library v0.1.0 | Rust 1.75" := by decide +kernel
  have hseparator : Wire.isHeaderValue " | " := by decide +kernel
  rw [userAgent]
  cases c.userAgentPrefix with
  | none => simp [hproduct]
  | some text =>
    simp only [Wire.isHeaderValue_append, hproduct, hseparator, Bool.and_true, Option.some.injEq,
      forall_eq']

theorem Connection.sendable_ofConfig {c : Config} (h : c.Regular) : (ofConfig c).Sendable :=
  ⟨h.base, (Config.isHeaderValue_userAgent_iff c).mpr h.userAgentPrefix, h.token⟩

/-- Every request is redirected once and then succeeds. -/
def Transport.redirecting : Transport := fun w =>
  .delivered
    [⟨⟨302, [("Location", "/final")], ""⟩, { w with target := "/final" }, by decide +kernel⟩]
    (some ⟨200, [], ""⟩)

namespace Session

/-- What a step sets is as in a regular configuration, what it sends has legal headers and a path
that starts with a slash, and so has the base path of what it builds. -/
def Step.Regular : Step → Prop
  | .setBase _ text => ∀ base, BaseUrl.ofText text = .ok base → base.IsTest
  | .setToken _ text => Wire.isHeaderValue text
  | .send _ q => q.Plain ∧ q.path.startsWith "/"
  | .submit _ _ path _ _ => path.startsWith "/"
  | .build _ plan => plan.basePath.startsWith "/"
  | _ => True

/-- The method of the operation that a step calls, or of the request that it sends. -/
def method? (s : Session) (step : Step) : Option Method :=
  match s.called? step with
  | some (r, call) => (r.operation? call.operation).map (·.descriptor.method)
  | none => (s.request? step).map (·.method)

variable {s s' : Session} {c : Connection} {t : Transport} {q : Request} {step : Step} {e : Event}

theorem mem_resources_of_called {r : Resource} {call : Call}
    (h : s.called? step = some (r, call)) : ∃ m ∈ s.resources, m.resource = r := by
  cases step with
  | call resource invocation =>
    obtain ⟨m, hm, hr⟩ := Option.bind_eq_some_iff.mp h
    obtain ⟨call', -, hpair⟩ := Option.bind_eq_some_iff.mp hr
    exact ⟨m, List.mem_of_getElem? hm, congrArg Prod.fst (Option.some.inj hpair)⟩
  | operate resource operation a =>
    obtain ⟨m, hm, hr⟩ := Option.bind_eq_some_iff.mp h
    exact ⟨m, List.mem_of_getElem? hm, congrArg Prod.fst (Option.some.inj hr)⟩
  | _ => cases h

theorem request?_of_called {r : Resource} {call : Call}
    (h : s.called? step = some (r, call)) : s.request? step = (call.prepare r).toOption := by
  cases step with
  | call | operate => simp only [request?, h, Option.bind_some]
  | _ => cases h

/-- The request of a regular step has no headers that compete with the token, and its path starts
with a slash where the base path of its resource does. -/
theorem plain_of_request (h : s.Built) (hstep : step.Regular)
    (hq : s.request? step = some q) :
    q.Plain ∧ ((∀ r call, s.called? step = some (r, call) → r.basePath.startsWith "/") →
      q.path.startsWith "/") := by
  cases hcalled : s.called? step with
  | some call =>
    obtain ⟨r, call⟩ := call
    obtain ⟨m, hm, rfl⟩ := mem_resources_of_called hcalled
    obtain ⟨plan, hbuild⟩ := h m hm
    rw [request?_of_called hcalled, Except.toOption_eq_some_iff] at hq
    obtain ⟨o, -, hcompile, hprepare⟩ := Resource.exists_operation_of_prepare hbuild hq
    refine ⟨Operation.plain_of_prepare (Operation.bound_of_compile hcompile) hprepare, ?_⟩
    intro hbase
    have hslash := hbase _ _ rfl
    rw [(Resource.Plan.registered_of_build hbuild).1] at hslash
    exact Operation.startsWith_slash_of_prepare hcompile hslash hprepare
  | none =>
    cases step with
    | login =>
      have hslash : Login.path.startsWith "/" := by decide +kernel
      obtain rfl := Option.some.inj hq
      exact ⟨by simp [Request.Plain, Request.form], fun _ => hslash⟩
    | logout =>
      have hslash : Login.logoutPath.startsWith "/" := by decide +kernel
      obtain rfl := Option.some.inj hq
      exact ⟨by simp [Request.Plain, Request.form], fun _ => hslash⟩
    | send handle q' =>
      obtain rfl := Option.some.inj hq
      exact ⟨hstep.1, fun _ => hstep.2⟩
    | submit handle method path query body =>
      obtain rfl := Option.some.inj hq
      exact ⟨by simp [Request.Plain, Request.form], fun _ => hstep⟩
    | _ => simp [request?, hcalled] at hq

theorem dispatches_of_sendable (h : Shared s c) (hb : s.Built) (hc : c.Sendable)
    (ht : t.Reaches BaseUrl.testAuthorities) (hstep : step.Regular) (hcall : step.isCall)
    (hadmits : s.Admits step)
    (hbase : ∀ r call, s.called? step = some (r, call) → r.basePath.startsWith "/") :
    ∃ q, s.request? step = some q ∧
      (s.step t step).2.Dispatches t c.base c.token q (step.failure .network) := by
  rcases relays_step h hb t hcall with ⟨hlacks, -, -⟩ | @⟨q, -, hq, hv, hx⟩
  · exact absurd hadmits hlacks
  · obtain ⟨hplain, hpath⟩ := plain_of_request hb hstep hq
    refine ⟨q, hq, ?_⟩
    rw [hx]
    exact (Connection.dispatches_of_valid hc ht hplain (hpath hbase) hv).relay _ _

/-- A session whose clients share a connection that can send, and whose resources stand below
absolute base paths. -/
structure Ready (s : Session) (c : Connection) : Prop where
  shared : Shared s c
  sendable : c.Sendable
  resources : ∀ m ∈ s.resources, ∃ plan : Resource.Plan,
    plan.build = .ok m.resource ∧ plan.basePath.startsWith "/"

theorem ready_ofConfig {c : Config} (h : c.Regular) : Ready (ofConfig c) (.ofConfig c) :=
  ⟨shared_ofConfig c, Connection.sendable_ofConfig h, by simp [ofConfig]⟩

theorem ready_of_change (h : Ready s c) (he : e.step.Regular) (hc : Change s c e s') :
    Ready s' (e.configure c) := by
  have hshared := shared_of_change h.shared hc
  have hsendable := h.sendable
  cases hc with
  | failure step f => rwa [configure_failure]
  | call hcall result => rwa [configure_call hcall]
  | inspect | describe | clone => exact ⟨hshared, hsendable, h.resources⟩
  | setBase handle hbase a =>
    rw [configure_setBase hbase] at hshared ⊢
    exact ⟨hshared, ⟨he _ hbase, hsendable.userAgent, hsendable.token⟩, h.resources⟩
  | setToken handle htoken a =>
    rw [configure_setToken htoken] at hshared ⊢
    -- The new token is the text itself, which the step promises to be a legal header value.
    refine ⟨hshared, ⟨hsendable.base, hsendable.userAgent, ?_⟩, h.resources⟩
    rintro _ ⟨⟩
    rw [AccessToken.ofText_eq_ok_iff.mp htoken]
    exact he
  | clearToken =>
    exact ⟨hshared, ⟨hsendable.base, hsendable.userAgent, by rintro _ ⟨⟩⟩, h.resources⟩
  | build handle hbuild =>
    refine ⟨hshared, hsendable, List.forall_mem_append.mpr ⟨h.resources, ?_⟩⟩
    rw [List.forall_mem_singleton]
    exact ⟨_, hbuild, he⟩

theorem ready_run (h : Ready s c) {steps : List (Transport × Step)}
    (hsteps : ∀ p ∈ steps, p.2.Regular) :
    Ready (s.run steps).1 (configured c (s.events steps)) :=
  kept_run (fun _ _ _ _ => ready_of_change) h.shared h hsteps

theorem Ready.built (h : Ready s c) : s.Built := by
  intro m hm
  obtain ⟨plan, hbuild, -⟩ := h.resources m hm
  exact ⟨plan, hbuild⟩

theorem dispatches_step (h : Ready s c) (ht : t.Reaches BaseUrl.testAuthorities)
    (hstep : step.Regular) (hcall : step.isCall) (hadmits : s.Admits step) :
    ∃ q, s.request? step = some q ∧
      (s.step t step).2.Dispatches t c.base c.token q (step.failure .network) := by
  refine dispatches_of_sendable h.shared h.built h.sendable ht hstep hcall hadmits ?_
  intro r call hcalled
  obtain ⟨m, hm, rfl⟩ := mem_resources_of_called hcalled
  obtain ⟨plan, hbuild, hslash⟩ := h.resources m hm
  rwa [(Resource.Plan.registered_of_build hbuild).1]

/-- An operation's request has the operation's method. -/
theorem method?_eq_some (h : Ready s c) (hq : s.request? step = some q) :
    s.method? step = some q.method := by
  rw [method?]
  split
  case h_2 => rw [hq, Option.map_some]
  case h_1 r call hcalled =>
    obtain ⟨m, hm, rfl⟩ := mem_resources_of_called hcalled
    obtain ⟨plan, hbuild, -⟩ := h.resources m hm
    have hprepare : m.resource.prepare call.operation call.arguments = .ok q := by
      rw [request?_of_called hcalled] at hq
      exact Except.toOption_eq_some_iff.mp hq
    obtain ⟨o, hfound, hcompile, ho⟩ := Resource.exists_operation_of_prepare hbuild hprepare
    obtain ⟨-, rfl⟩ := (Operation.prepare_eq_ok_iff (Operation.bound_of_compile hcompile)).mp ho
    rw [hfound]
    rfl

theorem sent_of_not_isCall (h : Shared s c) (t : Transport)
    (hstep : step.isCall = false) : (s.step t step).2.sent = [] := by
  cases step with
  | login | logout | send | submit | call | operate => cases hstep
  | inspect => rfl
  | clone | clearToken =>
    rw [Session.step, h.onHandle]
    split <;> rfl
  | setBase | setToken | build =>
    rw [Session.step, h.onHandle]
    split
    · split <;> rfl
    · rfl
  | describe =>
    rw [Session.step, h.onResource]
    split <;> rfl

/-- Where no redirection is followed, a step sends one request at most. -/
theorem length_sent_le_one (h : Ready s c) (ht : t.Reaches BaseUrl.testAuthorities)
    (hstep : step.Regular) (hdirect : ∀ w, (t w).further = []) :
    (s.step t step).2.sent.length ≤ 1 := by
  cases hcall : step.isCall with
  | false => simp [sent_of_not_isCall h.shared t hcall]
  | true =>
    by_cases hadmits : s.Admits step
    · obtain ⟨q, -, hdispatches⟩ := dispatches_step h ht hstep hcall hadmits
      by_cases hfits : q.Fits c.base
      · obtain ⟨w, hsent, -⟩ := hdispatches.fits hfits
        simp [hsent, hdirect]
      · simp [hdispatches.exceeds hfits, Exchange.silent]
    · have hrefused := (refused_iff h.shared h.built t hcall).mpr hadmits
      simp [sent_of_refused h.shared h.built t hcall hrefused]

end Session
end RestClient
