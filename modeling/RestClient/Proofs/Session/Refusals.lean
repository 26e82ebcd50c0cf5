import RestClient.Proofs.Resource.Preparation
import RestClient.Proofs.Session.Settings

namespace RestClient

theorem Request.verify_eq_ok_iff {q : Request} :
    q.verify = .ok () ↔ (q.body.isSome → q.bodyType.isSome ∧ q.method.carriesBody) := by
  obtain ⟨method, path, query, body, type, headers⟩ := q
  cases body with
  | none => simp [verify]
  | some fields => cases type <;> simp [verify]

theorem Login.checkLogin_eq_ok_iff (login password : String) :
    checkLogin login password = .ok () ↔ login ≠ "" ∧ password ≠ "" := by
  rw [checkLogin]
  split
  case isTrue h => simp_all [or_iff_not_imp_left]
  case isFalse h => simpa using h

theorem Login.checkLogout_eq_ok_iff (code : String) : checkLogout code = .ok () ↔ code ≠ "" := by
  rw [checkLogout]
  split
  case isTrue h => simpa using h
  case isFalse h => simpa using h

/-- There is an operation of that name, and the arguments have a text for each of its URL
parameters. -/
def Resource.Admits (r : Resource) (name : String) (a : Arguments) : Prop :=
  ∃ o, r.operation? name = some o ∧ ∀ param ∈ o.descriptor.urlParams, ¬ a.Lacks param

theorem Resource.prepare_succeeds_iff {p : Plan} {r : Resource} (h : p.build = .ok r)
    {name : String} {a : Arguments} : (∃ q, r.prepare name a = .ok q) ↔ r.Admits name a := by
  constructor
  · rintro ⟨q, hq⟩
    obtain ⟨o, hfound, hcompile, hprepare⟩ := exists_operation_of_prepare h hq
    have hbound := Operation.bound_of_compile hcompile
    exact ⟨o, hfound, ((Operation.prepare_eq_ok_iff hbound).mp hprepare).1⟩
  · rintro ⟨o, hfound, hgiven⟩
    have hbound := bound_of_build h (operation?_eq_some hfound).1
    exact ⟨_, Except.bind_eq_ok_iff.mpr
      ⟨o, operation_eq_ok_iff.mpr hfound, Operation.prepare_of_given hbound hgiven⟩⟩

namespace Session

/-- A failure that is found before anything is sent. -/
def Failure.isRefusal : Failure → Bool
  | .precondition _ | .api (.precondition _) => true
  | .send (.invalid _) | .api (.transport (.invalid _)) => true
  | .noHandle | .noResource => true
  | _ => false

def refused (x : Exchange Failure Answer) : Bool :=
  match x.result with
  | .error e => e.isRefusal
  | .ok _ => false

/-- What a call needs to be made: its client or resource is there, no text that it must be given is
empty, and no body stands without a type or under a method that carries none. -/
def Admits (s : Session) : Step → Prop
  | .login handle login password => handle < s.clients.length ∧ login ≠ "" ∧ password ≠ ""
  | .logout handle code => handle < s.clients.length ∧ code ≠ ""
  | .send handle q => handle < s.clients.length ∧
      (q.body.isSome → q.bodyType.isSome ∧ q.method.carriesBody)
  | .submit handle .. => handle < s.clients.length
  | .call resource i => ∃ m call, s.resources[resource]? = some m ∧ i.call = .ok call ∧
      m.resource.Admits call.operation call.arguments
  | .operate resource name a => ∃ m, s.resources[resource]? = some m ∧ m.resource.Admits name a
  | _ => False

/-- The resource and the call of a step that calls an operation. -/
def called? (s : Session) : Step → Option (Resource × Call)
  | .call resource invocation => do
    return ((← s.resources[resource]?).resource, ← invocation.call.toOption)
  | .operate resource operation a => do
    return ((← s.resources[resource]?).resource, ⟨operation, a⟩)
  | _ => none

/-- The request that a step is to send. -/
def request? (s : Session) : Step → Option Request
  | .login _ login password =>
    some (.form .post Login.path [] [("login", .string login), ("password", .string password)])
  | .logout _ code => some (.form .post Login.logoutPath [] [("access_code", .string code)])
  | .send _ q => some q
  | .submit _ method path query body => some (.form method path query body)
  | step => (s.called? step).bind fun (r, call) => (call.prepare r).toOption

/-- All resources are built from plans. -/
def Built (s : Session) : Prop :=
  ∀ m ∈ s.resources, ∃ plan : Resource.Plan, plan.build = .ok m.resource

variable {s s' : Session} {c : Connection} {t : Transport} {q : Request} {step : Step} {e : Event}

theorem built_of_change (h : s.Built) (hc : Change s c e s') : s'.Built := by
  cases hc with
  | build handle hbuild =>
    refine List.forall_mem_append.mpr ⟨h, ?_⟩
    rw [List.forall_mem_singleton]
    exact ⟨_, hbuild⟩
  | _ => exact h

theorem built_run (k : Config) (steps : List (Transport × Step)) :
    ((ofConfig k).run steps).1.Built :=
  kept_run (P := fun s _ => s.Built) (R := fun _ => True)
    (fun _ _ _ _ hb _ hc => built_of_change hb hc) (shared_ofConfig k) (by simp [Built, ofConfig])
    fun _ _ => trivial

/-- How a step wraps the failure of its request. -/
def Step.failure : Step → SendError → Failure
  | .send .. | .submit .. => .send
  | _ => fun e => .api (.transport e)

/-- What a step makes of a success. -/
def Step.finish : Step → Response → Except Failure Answer
  | .login .., r =>
    match Login.ofBody r.body with
    | .ok l => .ok (.login l)
    | .error reason => .error (.api (.unexpectedResponse "login" reason))
  | .send .., r | .submit .., r => .ok (.response r)
  | _, r => .ok (.body r.body)

theorem isRefusal_failure_iff (step : Step) (e : SendError) :
    (step.failure e).isRefusal ↔ ∃ r, e = .invalid r := by
  cases step <;> cases e <;> simp [Step.failure, Failure.isRefusal]

/-- Only a login can fail with a success. -/
theorem exists_of_finish_eq_error {r : Response} {f : Failure} (h : step.finish r = .error f) :
    ∃ reason, f = .api (.unexpectedResponse "login" reason) := by
  cases step with
  | login handle login password =>
    rw [Step.finish] at h
    split at h
    · cases h
    · exact ⟨_, (Except.error.inj h).symm⟩
  | _ => cases h

/-- What a step makes of what comes of sending a request. -/
def relayed (c : Connection) (t : Transport) (step : Step) (q : Request) :
    Exchange Failure Answer :=
  ((c.send t q).mapError step.failure).andThen step.finish

/-- A call lacks what it needs and is refused before anything is sent, or passes on what comes of
sending its request, with which nothing is wrong. -/
inductive Relays (s : Session) (c : Connection) (t : Transport) (step : Step)
    (x : Exchange Failure Answer) : Prop
  | refused (hadmits : ¬ s.Admits step) (hrefused : refused x) (hsilent : x.sent = [])
  | relayed {q : Request} (hadmits : s.Admits step) (hq : s.request? step = some q)
      (hv : q.verify = .ok ()) (hx : x = relayed c t step q)

theorem relays_fetch (hfailure : step.failure = fun e => .api (.transport e))
    (hfinish : step.finish = fun r => .ok (.body r.body))
    {prepared : Except PreconditionError Request} (hq : s.request? step = prepared.toOption)
    (hv : ∀ q, prepared = .ok q → q.verify = .ok ())
    (hadmits : s.Admits step ↔ ∃ q, prepared = .ok q) :
    Relays s c t step (s.relay (c.fetch t prepared) .api .body).2 := by
  cases prepared with
  | error e => exact .refused (by simp [hadmits]) rfl rfl
  | ok q =>
    refine .relayed (hadmits.mpr ⟨q, rfl⟩) hq (hv q rfl) ?_
    simp only [relay, Connection.fetch, Exchange.mapError_andThen, Exchange.mapError_mapError,
      Exchange.andThen_andThen, relayed, hfailure, hfinish]
    rfl

/-- Every call is one of the two. -/
theorem relays_step (h : Shared s c) (hb : s.Built) (t : Transport) (hcall : step.isCall) :
    Relays s c t step (s.step t step).2 := by
  cases step with
  | inspect | clone | setBase | setToken | clearToken | build | describe => cases hcall
  | login handle login password =>
    rw [Session.step, h.onHandle]
    split
    case isFalse hhandle => exact .refused (fun hadmits => hhandle hadmits.1) rfl rfl
    case isTrue hhandle =>
      have hchecked := Login.checkLogin_eq_ok_iff login password
      rw [Connection.login]
      generalize Login.checkLogin login password = checked at hchecked ⊢
      cases checked with
      | error e =>
        refine .refused (fun hadmits => ?_) rfl rfl
        cases hchecked.mpr hadmits.2
      | ok =>
        refine .relayed ⟨hhandle, hchecked.mp rfl⟩ rfl rfl ?_
        simp only [relay, Connection.submit_eq_send, Exchange.mapError_andThen,
          Exchange.mapError_mapError, Exchange.andThen_andThen]
        refine congrArg (Exchange.andThen _) ?_
        funext r
        rw [Step.finish]
        cases Login.ofBody r.body <;> rfl
  | logout handle code =>
    rw [Session.step, h.onHandle]
    split
    case isFalse hhandle => exact .refused (fun hadmits => hhandle hadmits.1) rfl rfl
    case isTrue hhandle =>
      have hchecked := Login.checkLogout_eq_ok_iff code
      rw [Connection.logout]
      generalize Login.checkLogout code = checked at hchecked ⊢
      cases checked with
      | error e =>
        refine .refused (fun hadmits => ?_) rfl rfl
        cases hchecked.mpr hadmits.2
      | ok =>
        refine .relayed ⟨hhandle, hchecked.mp rfl⟩ rfl rfl ?_
        simp only [relay, Connection.submit_eq_send, Exchange.mapError_andThen,
          Exchange.mapError_mapError, Exchange.andThen_andThen]
        rfl
  | send handle q =>
    rw [Session.step, h.onHandle]
    split
    case isFalse hhandle => exact .refused (fun hadmits => hhandle hadmits.1) rfl rfl
    case isTrue hhandle =>
      cases hv : q.verify with
      | error e =>
        rw [Connection.send_of_invalid hv]
        refine .refused (fun hadmits => ?_) rfl rfl
        cases hv.symm.trans (Request.verify_eq_ok_iff.mpr hadmits.2)
      | ok => exact .relayed ⟨hhandle, Request.verify_eq_ok_iff.mp hv⟩ rfl hv rfl
  | submit handle method path query body =>
    rw [Session.step, h.onHandle]
    split
    case isFalse hhandle => exact .refused hhandle rfl rfl
    case isTrue hhandle =>
      rw [Connection.submit_eq_send]
      exact .relayed hhandle rfl (Request.verify_form method path query body) rfl
  | call resource invocation =>
    rw [Session.step, h.onResource]
    cases hm : s.resources[resource]? with
    | none => exact .refused (by simp [Admits, hm]) rfl rfl
    | some m =>
      obtain ⟨plan, hbuild⟩ := hb m (List.mem_of_getElem? hm)
      cases hcall : invocation.call with
      | error e => exact .refused (by simp [Admits, hcall]) rfl rfl
      | ok call =>
        have hrequest : s.request? (.call resource invocation) =
            (call.prepare m.resource).toOption := by
          simp [request?, called?, hm, hcall, Except.toOption]
        refine relays_fetch rfl rfl hrequest
          (fun q hq => Resource.verify_of_prepare_of_build hbuild hq) ?_
        rw [Call.prepare, Resource.prepare_succeeds_iff hbuild]
        simp [Admits, hm, hcall]
  | operate resource operation a =>
    rw [Session.step, h.onResource]
    cases hm : s.resources[resource]? with
    | none => exact .refused (by simp [Admits, hm]) rfl rfl
    | some m =>
      obtain ⟨plan, hbuild⟩ := hb m (List.mem_of_getElem? hm)
      have hadmits : s.Admits (.operate resource operation a) ↔
          ∃ q, m.resource.prepare operation a = .ok q := by
        rw [Resource.prepare_succeeds_iff hbuild]
        simp [Admits, hm]
      dsimp only
      cases ho : m.resource.operation operation with
      | error e =>
        refine .refused ?_ rfl rfl
        rw [hadmits, Resource.prepare, ho]
        simp
      | ok o =>
        have hprepare : m.resource.prepare operation a = o.prepare a := by
          rw [Resource.prepare, ho, Except.ok_bind]
        have hrequest : s.request? (.operate resource operation a) = (o.prepare a).toOption := by
          simp [request?, called?, hm, Call.prepare, hprepare]
        refine relays_fetch rfl rfl hrequest (fun q hq => ?_) (hprepare ▸ hadmits)
        exact Resource.verify_of_prepare_of_build hbuild (hprepare.trans hq)

/-- A verified request is not refused. -/
theorem refused_relayed (hv : q.verify = .ok ()) (step : Step) :
    refused (relayed c t step q) = false := by
  have hvalid := Connection.send_result_ne_invalid (c := c) (t := t) hv
  cases hr : (c.send t q).result with
  | error e =>
    have he : ¬ (step.failure e).isRefusal := by
      intro hrefusal
      obtain ⟨r, rfl⟩ := (isRefusal_failure_iff step e).mp hrefusal
      exact hvalid r hr
    rw [refused, relayed, Exchange.result_of_error hr]
    exact Bool.eq_false_iff.mpr he
  | ok r =>
    rw [refused, relayed, Exchange.result_of_ok hr]
    cases hf : step.finish r with
    | error e =>
      obtain ⟨reason, rfl⟩ := exists_of_finish_eq_error hf
      rfl
    | ok a => rfl

/-- A call is refused for what it lacks, and for nothing else. -/
theorem refused_iff (h : Shared s c) (hb : s.Built) (t : Transport) (hcall : step.isCall) :
    refused (s.step t step).2 ↔ ¬ s.Admits step := by
  rcases relays_step h hb t hcall with ⟨hadmits, hrefused, -⟩ | @⟨q, hadmits, -, hv, hx⟩
  · exact iff_of_true hrefused hadmits
  · rw [hx, refused_relayed hv]
    simp [hadmits]

theorem admits_of_not_refused (k : Config) (before : List (Transport × Step)) (t : Transport)
    (hcall : step.isCall) (h : refused (((ofConfig k).run before).1.step t step).2 = false) :
    ((ofConfig k).run before).1.Admits step := by
  have hiff := refused_iff (shared_run (shared_ofConfig k) before) (built_run k before) t hcall
  by_contra hlacks
  rw [hiff.mpr hlacks] at h
  cases h

theorem sent_of_refused (h : Shared s c) (hb : s.Built) (t : Transport) (hcall : step.isCall)
    (hrefused : refused (s.step t step).2) : (s.step t step).2.sent = [] := by
  rcases relays_step h hb t hcall with ⟨-, -, hsilent⟩ | @⟨q, -, -, hv, hx⟩
  · exact hsilent
  · rw [hx, refused_relayed hv] at hrefused
    cases hrefused

end Session
end RestClient
