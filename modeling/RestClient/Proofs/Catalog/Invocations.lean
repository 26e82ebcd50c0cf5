import RestClient.Proofs.Catalog.Targets
import RestClient.Proofs.Resource.Registry
import RestClient.Session

namespace RestClient

/-- The request of a call of a resource, or the reason why there is none. -/
def Invocation.prepare (i : Invocation) (r : Resource) : Except PreconditionError Request := do
  (← i.call).prepare r

namespace Session

variable {s : Session} {t : Transport} {resource : Nat} {m : Mount} {c : Connection}
  {i : Invocation}

/-- A call passes on what comes of fetching its request. -/
theorem step_call (hm : s.resources[resource]? = some m) (hc : s.connection? m.client = some c) :
    s.step t (.call resource i) = s.relay (c.fetch t (i.prepare m.resource)) .api .body := by
  rw [step, onResource, hm]
  simp only [hc]
  rw [Invocation.prepare]
  cases i.call <;> rfl

theorem step_call_of_error (hm : s.resources[resource]? = some m)
    (hc : s.connection? m.client = some c) {e : PreconditionError}
    (h : i.prepare m.resource = .error e) :
    s.step t (.call resource i) = (s, .silent (.error (.api (.precondition e)))) := by
  rw [step_call hm hc, h]
  rfl

end Session

/-- The call of a resource is refused with `e`: in every session it leaves everything as it is, and
nothing is sent. -/
structure Invocation.Refused (i : Invocation) (r : Resource) (e : PreconditionError) : Prop where
  prepare : i.prepare r = .error e
  silent : ∀ (s : Session) (t : Transport) (resource : Nat) (m : Mount) (c : Connection),
    s.resources[resource]? = some m → m.resource = r → s.connection? m.client = some c →
      s.step t (.call resource i) = (s, .silent (.error (.api (.precondition e))))

theorem Invocation.refused_of_prepare {i : Invocation} {r : Resource} {e : PreconditionError}
    (h : i.prepare r = .error e) : i.Refused r e where
  prepare := h
  silent := by
    rintro s t resource m c hm rfl hc
    exact Session.step_call_of_error hm hc h

namespace Catalog

theorem exists_build {p : Resource.Plan} (hp : p ∈ plans) : ∃ r, p.build = .ok r := by
  have hall : ∀ p ∈ plans, p.build.toOption.isSome := by decide +kernel
  obtain ⟨r, hr⟩ := Option.isSome_iff_exists.mp (hall p hp)
  exact ⟨r, Except.toOption_eq_some_iff.mp hr⟩

end Catalog

namespace Resource

/-- The operation is what one of the declarations is compiled to. -/
def Plan.Declares (p : Plan) (o : Operation) : Prop :=
  (o.name, o.descriptor) ∈ p.declared ∧ Operation.compile o.name p.basePath o.descriptor = .ok o

instance (p : Plan) (o : Operation) : Decidable (p.Declares o) :=
  inferInstanceAs (Decidable (_ ∧ _))

theorem prepare_of_declares {p : Plan} {r : Resource} (hr : p.build = .ok r) {o : Operation}
    (ho : p.Declares o) (a : Arguments) : r.prepare o.name a = o.prepare a := by
  obtain ⟨-, -, -, hregistry⟩ := Plan.build_eq_ok_iff.mp hr
  have hfound := (operation?_eq_some_iff hregistry).mpr ⟨o.descriptor, ho⟩
  rw [prepare, operation_eq_ok_iff.mpr hfound, Except.ok_bind]

end Resource

/-- A helper that calls an operation prepares what the operation prepares. -/
theorem Invocation.prepare_of_call {p : Resource.Plan} {r : Resource} (hr : p.build = .ok r)
    {o : Operation} (ho : p.Declares o) {i : Invocation} {a : Arguments}
    (hi : i.call = .ok ⟨o.name, a⟩) : i.prepare r = o.prepare a := by
  rw [Invocation.prepare, hi, Except.ok_bind, Call.prepare, Resource.prepare_of_declares hr ho]

end RestClient
