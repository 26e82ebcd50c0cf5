import RestClient.Session

namespace RestClient.Session

/-- Logging in or out, a raw request, or a call of an operation. -/
def Step.isCall : Step → Bool
  | .login .. | .logout .. | .send .. | .submit .. | .call .. | .operate .. => true
  | _ => false

/-- A step that was taken, with its result. -/
structure Event where
  step : Step
  result : Except Failure Answer

/-- The steps that a run takes, with the results that it gives. -/
def events (s : Session) (steps : List (Transport × Step)) : List Event :=
  List.zipWith (fun p x => ⟨p.2, x.result⟩) steps (s.run steps).2

theorem run_cons (s : Session) (t : Transport) (step : Step) (rest : List (Transport × Step)) :
    (s.run ((t, step) :: rest)).1 = ((s.step t step).1.run rest).1 := rfl

theorem events_cons (s : Session) (t : Transport) (step : Step) (rest : List (Transport × Step)) :
    s.events ((t, step) :: rest) =
      ⟨step, (s.step t step).2.result⟩ :: (s.step t step).1.events rest := rfl

/-- All clients, also those of resources, speak over the only connection of the session. -/
structure Shared (s : Session) (c : Connection) : Prop where
  connections : s.connections = [c]
  clients : ∀ k ∈ s.clients, k = ⟨0⟩
  resources : ∀ m ∈ s.resources, m.client = ⟨0⟩

/-- What comes of a session, whose clients share the connection `c`, with each kind of event. -/
inductive Change (s : Session) (c : Connection) : Event → Session → Prop
  | failure (step : Step) (e : Failure) : Change s c ⟨step, .error e⟩ s
  | call {step : Step} (h : step.isCall) (result : Except Failure Answer) :
      Change s c ⟨step, result⟩ s
  | inspect (a : Answer) : Change s c ⟨.inspect, .ok a⟩ s
  | describe (resource : Nat) (a : Answer) : Change s c ⟨.describe resource, .ok a⟩ s
  | clone (handle : Nat) (a : Answer) :
      Change s c ⟨.clone handle, .ok a⟩ { s with clients := s.clients ++ [⟨0⟩] }
  | setBase (handle : Nat) {text : String} {base : BaseUrl} (h : BaseUrl.ofText text = .ok base)
      (a : Answer) :
      Change s c ⟨.setBase handle text, .ok a⟩ { s with connections := [{ c with base }] }
  | setToken (handle : Nat) {text : String} {token : AccessToken}
      (h : AccessToken.ofText text = .ok token) (a : Answer) :
      Change s c ⟨.setToken handle text, .ok a⟩
        { s with connections := [{ c with token := some token }] }
  | clearToken (handle : Nat) (a : Answer) :
      Change s c ⟨.clearToken handle, .ok a⟩ { s with connections := [{ c with token := none }] }
  | build (handle : Nat) {plan : Resource.Plan} {r : Resource} (h : plan.build = .ok r)
      (a : Answer) :
      Change s c ⟨.build handle plan, .ok a⟩ { s with resources := s.resources ++ [⟨⟨0⟩, r⟩] }

variable {s s' : Session} {c : Connection}

theorem shared_ofConfig (c : Config) : Shared (ofConfig c) (.ofConfig c) :=
  ⟨rfl, by simp [ofConfig], by simp [ofConfig]⟩

namespace Shared

theorem connection? (h : Shared s c) : s.connection? ⟨0⟩ = some c := by
  rw [Session.connection?, h.connections]
  rfl

theorem view? (h : Shared s c) : s.view? ⟨0⟩ = some (c.base, c.token) := by
  rw [Session.view?, h.connection?]
  rfl

theorem update (h : Shared s c) (c' : Connection) :
    s.update ⟨0⟩ c' = { s with connections := [c'] } := by
  rw [Session.update, h.connections]
  rfl

theorem onHandle (h : Shared s c) (handle : Nat) (run : Client → Connection → Outcome) :
    s.onHandle handle run =
      if handle < s.clients.length then run ⟨0⟩ c else s.refuse .noHandle := by
  rw [Session.onHandle]
  cases hk : s.clients[handle]? with
  | none => rw [if_neg (Nat.not_lt.mpr (List.getElem?_eq_none_iff.mp hk))]
  | some k =>
    have hlt : handle < s.clients.length := (List.getElem?_eq_some_iff.mp hk).1
    rw [h.clients k (List.mem_of_getElem? hk), if_pos hlt]
    simp only [h.connection?]

theorem onResource (h : Shared s c) (resource : Nat) (run : Resource → Connection → Outcome) :
    s.onResource resource run =
      match s.resources[resource]? with
      | none => s.refuse .noResource
      | some m => run m.resource c := by
  rw [Session.onResource]
  cases hm : s.resources[resource]? with
  | none => rfl
  | some m => simp only [h.resources m (List.mem_of_getElem? hm), h.connection?]

end Shared

/-- Whatever a call does is left in its exchange. -/
theorem step_fst_of_isCall (h : Shared s c) (t : Transport) {step : Step} (hcall : step.isCall) :
    (s.step t step).1 = s := by
  cases step with
  | inspect | clone | setBase | setToken | clearToken | build | describe => cases hcall
  | login | logout | send | submit =>
    rw [Session.step, h.onHandle]
    split <;> rfl
  | call | operate =>
    rw [Session.step, h.onResource]
    split
    · rfl
    · split <;> rfl

theorem change_step (h : Shared s c) (t : Transport) (step : Step) :
    Change s c ⟨step, (s.step t step).2.result⟩ (s.step t step).1 := by
  cases step with
  | inspect => exact .inspect _
  | clone handle =>
    rw [Session.step, h.onHandle]
    split
    · exact .clone _ _
    · exact .failure _ _
  | setBase handle text =>
    rw [Session.step, h.onHandle]
    split
    · cases hbase : BaseUrl.ofText text with
      | ok base => simpa only [h.update] using .setBase handle hbase _
      | error e => exact .failure _ _
    · exact .failure _ _
  | setToken handle text =>
    rw [Session.step, h.onHandle]
    split
    · cases htoken : AccessToken.ofText text with
      | ok token => simpa only [h.update] using .setToken handle htoken _
      | error e => exact .failure _ _
    · exact .failure _ _
  | clearToken handle =>
    rw [Session.step, h.onHandle]
    split
    · simpa only [h.update] using .clearToken handle _
    · exact .failure _ _
  | build handle plan =>
    rw [Session.step, h.onHandle]
    split
    · cases hbuild : plan.build with
      | ok r => exact .build handle hbuild _
      | error e => exact .failure _ _
    · exact .failure _ _
  | describe resource =>
    rw [Session.step, h.onResource]
    split
    · exact .failure _ _
    · exact .describe _ _
  -- A call leaves the session alone whatever its result is, so that no case is made of it.
  | login | logout | send | submit | call | operate =>
    rw [step_fst_of_isCall h t rfl]
    exact .call rfl _

end RestClient.Session
