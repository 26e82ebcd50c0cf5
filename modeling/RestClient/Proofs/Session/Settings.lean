import RestClient.Proofs.Session.Change

namespace RestClient.Session

/-- The base URL that an event puts in force. -/
def Event.base? : Event → Option BaseUrl
  | ⟨.setBase _ text, .ok _⟩ => (BaseUrl.ofText text).toOption
  | _ => none

/-- The token, or its absence, that an event puts in force. -/
def Event.token? : Event → Option (Option AccessToken)
  | ⟨.setToken _ text, .ok _⟩ => (AccessToken.ofText text).toOption.map some
  | ⟨.clearToken _, .ok _⟩ => some none
  | _ => none

def Event.isClone : Event → Bool
  | ⟨.clone _, .ok _⟩ => true
  | _ => false

def Event.isBuild : Event → Bool
  | ⟨.build _ _, .ok _⟩ => true
  | _ => false

/-- What the last of the events that set something sets; before all of them it is `start`. -/
def lastSet {α : Type} (set? : Event → Option α) (start : α) (es : List Event) : α :=
  (es.filterMap set?).getLastD start

/-- The connection with the settings that the events leave. -/
def configured (c : Connection) (es : List Event) : Connection :=
  { c with base := lastSet Event.base? c.base es, token := lastSet Event.token? c.token es }

def Event.configure (e : Event) (c : Connection) : Connection :=
  { c with base := e.base?.getD c.base, token := e.token?.getD c.token }

variable {s s' : Session} {c c' : Connection} {e : Event}

theorem lastSet_cons {α : Type} (set? : Event → Option α) (start : α) (e : Event)
    (es : List Event) : lastSet set? start (e :: es) = lastSet set? ((set? e).getD start) es := by
  rw [lastSet, List.filterMap_cons]
  cases set? e with
  | none => rfl
  | some a => exact List.getLastD_cons

theorem configured_cons (c : Connection) (e : Event) (es : List Event) :
    configured c (e :: es) = configured (e.configure c) es := by
  simp only [configured, Event.configure, lastSet_cons]

theorem configure_failure (step : Step) (f : Failure) (c : Connection) :
    Event.configure ⟨step, .error f⟩ c = c := by
  cases step <;> rfl

theorem configure_call {step : Step} (h : step.isCall) (result : Except Failure Answer)
    (c : Connection) : Event.configure ⟨step, result⟩ c = c := by
  cases step with
  | inspect | clone | setBase | setToken | clearToken | build | describe => cases h
  | _ => rfl

theorem configure_setBase {text : String} {base : BaseUrl} (h : BaseUrl.ofText text = .ok base)
    (handle : Nat) (a : Answer) (c : Connection) :
    Event.configure ⟨.setBase handle text, .ok a⟩ c = { c with base } := by
  simp [Event.configure, Event.base?, Event.token?, h, Except.toOption]

theorem configure_setToken {text : String} {token : AccessToken}
    (h : AccessToken.ofText text = .ok token) (handle : Nat) (a : Answer) (c : Connection) :
    Event.configure ⟨.setToken handle text, .ok a⟩ c = { c with token := some token } := by
  simp [Event.configure, Event.base?, Event.token?, h, Except.toOption]

theorem shared_of_change (h : Shared s c) (hc : Change s c e s') : Shared s' (e.configure c) := by
  cases hc with
  | failure step f => rwa [configure_failure]
  | call hcall result => rwa [configure_call hcall]
  | inspect | describe => exact h
  | clone => exact ⟨h.connections, List.forall_mem_append.mpr ⟨h.clients, by simp⟩, h.resources⟩
  | setBase handle hbase a =>
    rw [configure_setBase hbase]
    exact ⟨rfl, h.clients, h.resources⟩
  | setToken handle htoken a =>
    rw [configure_setToken htoken]
    exact ⟨rfl, h.clients, h.resources⟩
  | clearToken => exact ⟨rfl, h.clients, h.resources⟩
  | build => exact ⟨h.connections, h.clients, List.forall_mem_append.mpr ⟨h.resources, by simp⟩⟩

/-- What each change keeps, as long as the steps are of some kind, a run of such steps keeps. -/
theorem kept_run {P : Session → Connection → Prop} {R : Step → Prop}
    (hkept : ∀ s c e s', P s c → R e.step → Change s c e s' → P s' (e.configure c))
    (hs : Shared s c) (h : P s c) {steps : List (Transport × Step)} (hsteps : ∀ p ∈ steps, R p.2) :
    P (s.run steps).1 (configured c (s.events steps)) := by
  induction steps generalizing s c with
  | nil => exact h
  | cons p rest ih =>
    obtain ⟨t, step⟩ := p
    obtain ⟨hstep, hrest⟩ := List.forall_mem_cons.mp hsteps
    have hc := change_step hs t step
    -- The rest of the run starts from the connection that the first event leaves.
    rw [run_cons, events_cons, configured_cons]
    exact ih (shared_of_change hs hc) (hkept _ _ _ _ h hstep hc) hrest

/-- After a run the clients share what the events have made of their connection. -/
theorem shared_run (h : Shared s c) (steps : List (Transport × Step)) :
    Shared (s.run steps).1 (configured c (s.events steps)) :=
  kept_run (R := fun _ => True) (fun _ _ _ _ hs _ hc => shared_of_change hs hc) h h
    fun _ _ => trivial

theorem lengths_of_change (hc : Change s c e s') :
    s'.clients.length = s.clients.length + [e].countP Event.isClone ∧
      s'.resources.length = s.resources.length + [e].countP Event.isBuild := by
  cases hc with
  | failure step => cases step <;> exact ⟨rfl, rfl⟩
  | @call step hcall =>
    cases step with
    | inspect | clone | setBase | setToken | clearToken | build | describe => cases hcall
    | _ => exact ⟨rfl, rfl⟩
  | clone => exact ⟨by simp [Event.isClone], rfl⟩
  | build => exact ⟨rfl, by simp [Event.isBuild]⟩
  | inspect | describe | setBase | setToken | clearToken => exact ⟨rfl, rfl⟩

theorem lengths_run (h : Shared s c) (steps : List (Transport × Step)) :
    (s.run steps).1.clients.length = s.clients.length + (s.events steps).countP Event.isClone ∧
      (s.run steps).1.resources.length =
        s.resources.length + (s.events steps).countP Event.isBuild := by
  induction steps generalizing s c with
  | nil => exact ⟨rfl, rfl⟩
  | cons p rest ih =>
    obtain ⟨t, step⟩ := p
    have hc := change_step h t step
    -- The induction needs the clients to share a connection, or else a step may find none.
    obtain ⟨hclients, hresources⟩ := lengths_of_change hc
    obtain ⟨ihc, ihr⟩ := ih (shared_of_change h hc)
    rw [run_cons, events_cons, ihc, ihr, hclients, hresources]
    simp only [List.countP_cons, List.countP_nil]
    omega

theorem filterMap_eq_replicate {α β : Type} {f : α → Option β} {l : List α} {b : β}
    (h : ∀ a ∈ l, f a = some b) : l.filterMap f = List.replicate l.length b := by
  induction l with
  | nil => rfl
  | cons a rest ih =>
    rw [List.filterMap_cons, h a List.mem_cons_self, List.length_cons, List.replicate_succ,
      ih fun x hx => h x (List.mem_cons_of_mem a hx)]

theorem views_of_shared (h : Shared s c) :
    s.views = List.replicate s.clients.length (c.base, c.token) := by
  apply filterMap_eq_replicate
  intro k hk
  rw [h.clients k hk, h.view?]

theorem resourceViews_of_shared (h : Shared s c) :
    s.resourceViews = List.replicate s.resources.length (c.base, c.token) := by
  apply filterMap_eq_replicate
  intro m hm
  rw [h.resources m hm, h.view?]

theorem eq_of_failure {step : Step} {f : Failure} (hc : Change s c ⟨step, .error f⟩ s') :
    s' = s := by
  cases hc <;> rfl

/-- Only a step that succeeds, and that is no call, changes a session. -/
theorem step_fst_of_inert (h : Shared s c) (t : Transport) {step : Step}
    (hinert : (∃ e, (s.step t step).2.result = .error e) ∨ step.isCall) :
    (s.step t step).1 = s := by
  rcases hinert with ⟨e, he⟩ | hcall
  · exact eq_of_failure (he ▸ change_step h t step)
  · exact step_fst_of_isCall h t hcall

/-- After any run, the clients of all handles and resources report the base URL and the token that
were last set with success, or else those of the configuration. -/
theorem views_run (c : Config) (steps : List (Transport × Step)) :
    let s := ((ofConfig c).run steps).1
    let es := (ofConfig c).events steps
    let base := lastSet Event.base? c.baseUrl es
    let token := lastSet Event.token? c.token es
    s.views = List.replicate (1 + es.countP Event.isClone) (base, token) ∧
    s.resourceViews = List.replicate (es.countP Event.isBuild) (base, token) ∧
    (∀ tok, token = some tok → tok.text ≠ "") ∧
    ∀ t step, (∃ e, (s.step t step).2.result = .error e) ∨ step.isCall → (s.step t step).1 = s := by
  intro s es base token
  have hshared : Shared s (configured (.ofConfig c) es) := shared_run (shared_ofConfig c) steps
  obtain ⟨hclients, hresources⟩ := lengths_run (shared_ofConfig c) steps
  refine ⟨?_, ?_, ?_, ?_⟩
  · rw [views_of_shared hshared, hclients]
    rfl
  · have hlength : s.resources.length = es.countP Event.isBuild := by
      rw [hresources]
      exact Nat.zero_add _
    rw [resourceViews_of_shared hshared, hlength]
    rfl
  · intro tok _
    exact tok.text_ne
  · intro t step hinert
    exact step_fst_of_inert hshared t hinert

/-- What a clone sets, the first client and a resource made before it report; a refused base URL
changes nothing. -/
example :
    let c : Config := ⟨⟨"http", "a.test"⟩, none, none⟩
    let steps := [Step.build 0 { basePath := "/users" }, .clone 0, .setToken 1 "secret",
      .setBase 0 "http://b.test/v1/", .setBase 1 "b.test"].map (Transport.unreachable, ·)
    let s := ((ofConfig c).run steps).1
    let view := (⟨"http", "b.test/v1"⟩, some ⟨"secret", by decide⟩)
    s.views = [view, view] ∧ s.resourceViews = [view] := by
  decide +kernel

end RestClient.Session
