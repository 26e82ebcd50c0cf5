import RestClient.Proofs.Config.Grammar
import RestClient.Proofs.Session.Settings

namespace RestClient.Session

variable {s s' : Session} {c : Connection} {e : Event}

/-- The base URL of a connection was read from some text. -/
def Accepted (c : Connection) : Prop := ∃ text, BaseUrl.ofText text = .ok c.base

theorem accepted_of_change (h : Accepted c) (hc : Change s c e s') : Accepted (e.configure c) := by
  cases hc with
  | failure step f => rwa [configure_failure]
  | call hcall result => rwa [configure_call hcall]
  | setBase handle hbase a =>
    rw [configure_setBase hbase]
    exact ⟨_, hbase⟩
  | setToken handle htoken a => rwa [configure_setToken htoken]
  | inspect | describe | clone | clearToken | build => exact h

theorem accepted_run (hs : Shared s c) (h : Accepted c) (steps : List (Transport × Step)) :
    Accepted (configured c (s.events steps)) :=
  kept_run (P := fun _ c => Accepted c) (R := fun _ => True)
    (fun _ _ _ _ ha _ hc => accepted_of_change ha hc) hs h fun _ _ => trivial

/-- Setting the base URL succeeds and changes nothing just when the text is read as the base URL
that is set already. -/
theorem setBase_eq_self_iff (hs : Shared s c) (t : Transport) {handle : Nat}
    (hhandle : handle < s.clients.length) (text : String) :
    s.step t (.setBase handle text) = (s, .silent (.ok .done)) ↔
      BaseUrl.ofText text = .ok c.base := by
  rw [step, hs.onHandle, if_pos hhandle]
  cases BaseUrl.ofText text with
  | error f =>
    constructor
    · intro h
      cases congrArg (fun o => o.2.result) h
    · intro h
      cases h
  | ok base =>
    have hupdate : s.update ⟨0⟩ { c with base } = s ↔ base = c.base := by
      rw [hs.update]
      constructor
      · intro h
        have hconnections := congrArg Session.connections h
        rw [hs.connections] at hconnections
        exact congrArg Connection.base (List.singleton_inj.mp hconnections)
      · rintro rfl
        rw [← hs.connections]
    rw [Except.ok.injEq, ← hupdate]
    exact ⟨congrArg Prod.fst, congrArg fun s : Session => s.answer .done⟩

/-- A base URL is read from its own text again just when it does not end in a blank; so in every
session the client that reports it can be given it again and nothing changes. -/
theorem reset_base_iff {text : String} {u : BaseUrl}
    (h : BaseUrl.ofText text = .ok u) :
    (BaseUrl.ofText u.text = .ok u ↔ u.endsInBlank = false) ∧
    ∀ (c : Config), c.baseUrl = u → ∀ (steps : List (Transport × Step)) (t : Transport)
        (handle : Nat) (k : Client) (base : BaseUrl) (token : Option AccessToken),
      let s := ((ofConfig c).run steps).1
      s.clients[handle]? = some k → s.view? k = some (base, token) →
        (s.step t (.setBase handle base.text) = (s, .silent (.ok .done)) ↔
          base.endsInBlank = false) := by
  refine ⟨BaseUrl.ofText_text_iff h, ?_⟩
  rintro c rfl steps t handle k base token s hk hview
  have hstart := shared_ofConfig c
  have hs : Shared s (configured (.ofConfig c) ((ofConfig c).events steps)) :=
    shared_run hstart steps
  obtain ⟨source, haccepted⟩ := accepted_run hstart ⟨text, h⟩ steps
  have hhandle : handle < s.clients.length := (List.getElem?_eq_some_iff.mp hk).1
  rw [hs.clients k (List.mem_of_getElem? hk), hs.view?] at hview
  obtain ⟨rfl, -⟩ := Prod.mk.inj (Option.some.inj hview)
  rw [setBase_eq_self_iff hs t hhandle]
  exact BaseUrl.ofText_text_iff haccepted

theorem inner_blank_reset_base :
    let u : BaseUrl := ⟨"http", "b.test/x y"⟩
    let c : Config := ⟨⟨"http", "a.test"⟩, none, none⟩
    let steps := [Step.clone 0, .setBase 1 " http://b.test/x y// "].map (Transport.unreachable, ·)
    let s := ((ofConfig c).run steps).1
    BaseUrl.ofText "http://a.test" = .ok c.baseUrl ∧ BaseUrl.ofText c.baseUrl.text = .ok c.baseUrl ∧
      s.clients[0]? = some ⟨0⟩ ∧ s.view? ⟨0⟩ = some (u, none) ∧ u.endsInBlank = false ∧
      s.step .unreachable (.setBase 0 u.text) = (s, .silent (.ok .done)) := by
  intro u c steps s
  have hc : BaseUrl.ofText "http://a.test" = .ok c.baseUrl := by decide +kernel
  have hk : s.clients[0]? = some ⟨0⟩ := by decide +kernel
  have hview : s.view? ⟨0⟩ = some (u, none) := by decide +kernel
  have hu : u.endsInBlank = false := by decide +kernel
  obtain ⟨hagain, hsessions⟩ := reset_base_iff hc
  exact ⟨hc, hagain.mpr (by decide +kernel), hk, hview, hu,
    (hsessions c rfl steps Transport.unreachable 0 _ u none hk hview).mpr hu⟩

/-- Dropping the slash brings the blank before it to the end. The base URL that is read from the
text with it is another one, or is refused where the blank was all of its host. -/
theorem blank_before_slash_lost :
    let u : BaseUrl := ⟨"http", "a.test "⟩
    let s := ofConfig ⟨u, none, none⟩
    BaseUrl.ofText "http://a.test /" = .ok u ∧ u.text = "http://a.test " ∧
      BaseUrl.ofText u.text = .ok ⟨"http", "a.test"⟩ ∧
      s.views = [(u, none)] ∧
      (s.step .unreachable (.setBase 0 u.text)).1.views = [(⟨"http", "a.test"⟩, none)] ∧
      BaseUrl.ofText "http:// /" = .ok ⟨"http", " "⟩ ∧
      BaseUrl.ofText "http:// " = .error (.invalidBaseUrl "http://") := by
  decide +kernel

end RestClient.Session
