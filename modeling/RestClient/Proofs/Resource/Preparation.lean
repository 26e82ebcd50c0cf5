import RestClient.Proofs.Entries.Lookup
import RestClient.Proofs.Http.Sending
import RestClient.Proofs.Path.Rooted
import RestClient.Proofs.Resource.Compilation

namespace RestClient

/-- An argument that cannot stand in a path: it is absent, null or of empty text. -/
def Arguments.Lacks (a : Arguments) (name : String) : Prop :=
  a.get? name = none ∨ a.get? name = some .null ∨
    ∃ v, a.get? name = some v ∧ v.paramText? = some ""

namespace Operation

theorem urlText?_eq_some_iff {a : Arguments} {name text : String} :
    urlText? a name = some text ↔
      ∃ v, a.value? name = some v ∧ v.paramText? = some text ∧ text ≠ "" := by
  simp only [urlText?, Option.filter_eq_some_iff, Option.bind_eq_some_iff, Bool.not_eq_true',
    String.isEmpty_eq_false_iff]
  exact ⟨fun ⟨⟨v, hv, ht⟩, hne⟩ => ⟨v, hv, ht, hne⟩, fun ⟨v, hv, ht, hne⟩ => ⟨⟨v, hv, ht⟩, hne⟩⟩

theorem urlText?_eq_none_iff {a : Arguments} {name : String} :
    urlText? a name = none ↔ a.Lacks name := by
  constructor
  · intro h
    cases hv : a.get? name with
    | none => exact .inl hv
    | some v =>
      -- A value that is not null has a text, so only an empty one is filtered out.
      by_cases hnull : v = .null
      · exact .inr (.inl (hnull ▸ hv))
      obtain ⟨text, ht⟩ := Option.ne_none_iff_exists'.mp (mt Json.paramText?_eq_none_iff.mp hnull)
      by_cases hempty : text = ""
      · exact .inr (.inr ⟨v, hv, hempty ▸ ht⟩)
      have hvalue : a.value? name = some v := Arguments.value?_eq_some_iff.mpr ⟨hv, hnull⟩
      simp [urlText?_eq_some_iff.mpr ⟨v, hvalue, ht, hempty⟩] at h
  · intro h
    by_contra hsome
    obtain ⟨text, ht⟩ := Option.ne_none_iff_exists'.mp hsome
    obtain ⟨v, hvalue, htext, hne⟩ := urlText?_eq_some_iff.mp ht
    obtain ⟨hv, hnull⟩ := Arguments.value?_eq_some_iff.mp hvalue
    rcases h with h | h | ⟨w, hw, hempty⟩
    · simp [hv] at h
    · exact hnull (Option.some.inj (hv.symm.trans h))
    · obtain rfl := Option.some.inj (hv.symm.trans hw)
      exact hne (Option.some.inj (htext.symm.trans hempty))

instance (a : Arguments) (name : String) : Decidable (a.Lacks name) :=
  decidable_of_iff (urlText? a name = none) urlText?_eq_none_iff

theorem urlText?_eq_some_getD {a : Arguments} {name : String} (h : ¬ a.Lacks name) :
    urlText? a name = some ((urlText? a name).getD "") := by
  cases ht : urlText? a name with
  | none => exact absurd (urlText?_eq_none_iff.mp ht) h
  | some text => rfl

/-- The URL parameters are the placeholders of the template. -/
def Bound (o : Operation) : Prop :=
  ∀ name, name ∈ o.template.placeholders ↔ name ∈ o.descriptor.urlParams

theorem bound_of_compile {name basePath : String} {d : Descriptor} {o : Operation}
    (h : compile name basePath d = .ok o) : o.Bound := by
  obtain ⟨-, -, rfl, hd⟩ := compile_eq_ok_iff.mp h
  exact hd.bound

/-- The request that is prepared from arguments which give every URL parameter. -/
def request (o : Operation) (a : Arguments) : Request where
  method := o.descriptor.method
  path := o.template.filled fun name => (urlText? a name).getD ""
  query := queryFields o.descriptor a
  body := if o.descriptor.method.carriesBody then some (bodyFields o.descriptor a) else none
  bodyType := if o.descriptor.method.carriesBody then some o.descriptor.bodyType else none

variable {o : Operation} {a : Arguments}

theorem urlValues_of_given (h : ∀ name ∈ o.descriptor.urlParams, ¬ a.Lacks name) :
    o.urlValues a =
      .ok (o.descriptor.urlParams.map fun name => (name, (urlText? a name).getD "")) := by
  apply Except.mapM_eq_ok_map
  intro name hmem
  rw [urlText?_eq_some_getD (h name hmem)]
  rfl

theorem urlValues_of_lacking {before after : List String} {name : String}
    (hparams : o.descriptor.urlParams = before ++ name :: after)
    (hbefore : ∀ n ∈ before, ¬ a.Lacks n) (hname : a.Lacks name) :
    o.urlValues a = .error (.missingArgument o.name name) := by
  rw [urlValues, hparams]
  apply Except.mapM_eq_error_of_first
  · intro n hn
    exact ⟨(n, (urlText? a n).getD ""), by rw [urlText?_eq_some_getD (hbefore n hn)]; rfl⟩
  · rw [urlText?_eq_none_iff.mpr hname]

/-- No placeholder is without a value once all URL parameters have one. -/
theorem render_urlValues (ho : o.Bound) (h : ∀ name ∈ o.descriptor.urlParams, ¬ a.Lacks name)
    {values : Entries String} (hvalues : o.urlValues a = .ok values) :
    o.template.render (values.lookup ·) = .ok (o.request a).path := by
  obtain rfl := Except.ok.inj ((urlValues_of_given h).symm.trans hvalues)
  exact Path.Template.render_eq_ok fun name hmem => Entries.lookup_map_of_mem ((ho name).mp hmem)

theorem prepare_of_given (ho : o.Bound) (h : ∀ name ∈ o.descriptor.urlParams, ¬ a.Lacks name) :
    o.prepare a = .ok (o.request a) := by
  rw [prepare, urlValues_of_given h, Except.ok_bind,
    render_urlValues ho h (urlValues_of_given h)]
  rfl

theorem prepare_of_lacking {before after : List String} {name : String}
    (hparams : o.descriptor.urlParams = before ++ name :: after)
    (hbefore : ∀ n ∈ before, ¬ a.Lacks n) (hname : a.Lacks name) :
    o.prepare a = .error (.missingArgument o.name name) := by
  rw [prepare, urlValues_of_lacking hparams hbefore hname]
  rfl

/-- Either all names are given, or one is the first that is not. -/
theorem given_or_first_lacking (a : Arguments) (names : List String) :
    (∀ name ∈ names, ¬ a.Lacks name) ∨ ∃ before name after,
      names = before ++ name :: after ∧ (∀ n ∈ before, ¬ a.Lacks n) ∧ a.Lacks name := by
  cases hfind : names.find? fun name => (urlText? a name).isNone with
  | none =>
    left
    intro name hmem hlacks
    have := List.find?_eq_none.mp hfind name hmem
    simp [urlText?_eq_none_iff.mpr hlacks] at this
  | some name =>
    right
    obtain ⟨hname, before, after, rfl, hbefore⟩ := List.find?_eq_some_iff_append.mp hfind
    refine ⟨before, name, after, rfl, ?_,
      urlText?_eq_none_iff.mp (Option.isNone_iff_eq_none.mp hname)⟩
    intro n hn hlacks
    simpa [urlText?_eq_none_iff.mpr hlacks] using hbefore n hn

theorem prepare_eq_ok_iff (ho : o.Bound) {q : Request} :
    o.prepare a = .ok q ↔
      (∀ name ∈ o.descriptor.urlParams, ¬ a.Lacks name) ∧ q = o.request a := by
  rcases given_or_first_lacking a o.descriptor.urlParams with
    hgiven | ⟨before, name, after, hparams, hbefore, hname⟩
  · rw [prepare_of_given ho hgiven, Except.ok.injEq, eq_comm]
    exact ⟨fun hq => ⟨hgiven, hq⟩, fun ⟨_, hq⟩ => hq⟩
  · have hnot : ¬ ∀ name ∈ o.descriptor.urlParams, ¬ a.Lacks name := by
      intro hgiven
      exact hgiven name (by simp [hparams]) hname
    rw [prepare_of_lacking hparams hbefore hname]
    simp [hnot]

theorem prepare_eq_error_iff (ho : o.Bound) {e : PreconditionError} :
    o.prepare a = .error e ↔ ∃ before name after,
      o.descriptor.urlParams = before ++ name :: after ∧ (∀ n ∈ before, ¬ a.Lacks n) ∧
        a.Lacks name ∧ e = .missingArgument o.name name := by
  constructor
  · intro h
    rcases given_or_first_lacking a o.descriptor.urlParams with
      hgiven | ⟨before, name, after, hparams, hbefore, hname⟩
    · rw [prepare_of_given ho hgiven] at h
      cases h
    · rw [prepare_of_lacking hparams hbefore hname] at h
      exact ⟨before, name, after, hparams, hbefore, hname, (Except.error.inj h).symm⟩
  · rintro ⟨before, name, after, hparams, hbefore, hname, rfl⟩
    exact prepare_of_lacking hparams hbefore hname

theorem verify_request (o : Operation) (a : Arguments) : (o.request a).verify = .ok () := by
  by_cases h : o.descriptor.method.carriesBody <;> simp [Request.verify, request, h]

/-- URL parameters with values leave no placeholder without one. -/
theorem exists_path_of_urlValues (ho : o.Bound) {values : Entries String}
    (hvalues : o.urlValues a = .ok values) :
    ∃ path, o.template.render (values.lookup ·) = .ok path := by
  rcases given_or_first_lacking a o.descriptor.urlParams with
    hgiven | ⟨before, name, after, hparams, hbefore, hname⟩
  · exact ⟨_, render_urlValues ho hgiven hvalues⟩
  · rw [urlValues_of_lacking hparams hbefore hname] at hvalues
    cases hvalues

theorem prepare_fails_iff (ho : o.Bound) :
    (∃ e, o.prepare a = .error e) ↔ ∃ name ∈ o.descriptor.urlParams, a.Lacks name := by
  constructor
  · rintro ⟨e, he⟩
    obtain ⟨before, name, after, hparams, -, hlacks, -⟩ := (prepare_eq_error_iff ho).mp he
    exact ⟨name, by simp [hparams], hlacks⟩
  · rintro ⟨name, hmem, hlacks⟩
    rcases given_or_first_lacking a o.descriptor.urlParams with
      hgiven | ⟨before, name', after, hparams, hbefore, hname'⟩
    · exact absurd hlacks (hgiven name hmem)
    · exact ⟨_, prepare_of_lacking hparams hbefore hname'⟩

/-- The path of a prepared request is not empty, and starts with a slash if and only if the base
path does. -/
theorem path_of_prepare {name basePath : String} {d : Descriptor}
    (hc : compile name basePath d = .ok o) (h : basePath ≠ "") {q : Request}
    (hq : o.prepare a = .ok q) :
    (q.path.startsWith "/" ↔ basePath.startsWith "/") ∧ q.path ≠ "" := by
  obtain ⟨-, -, rfl, hd⟩ := compile_eq_ok_iff.mp hc
  obtain ⟨hgiven, rfl⟩ := (prepare_eq_ok_iff hd.bound).mp hq
  have hvalues : ∀ name ∈ o.template.placeholders, (urlText? a name).getD "" ≠ "" := by
    intro name hname
    have htext := urlText?_eq_some_getD (hgiven name ((hd.bound name).mp hname))
    obtain ⟨v, -, -, hne⟩ := urlText?_eq_some_iff.mp htext
    exact hne
  obtain ⟨hslash, hempty⟩ := Path.Template.starts_filled_iff hvalues
  have htext : o.template.text = Path.join basePath (o.descriptor.path.getD "") :=
    (Path.Template.parse_eq_ok_iff_canonical.mp hd.parse).2
  rw [htext] at hslash hempty
  exact ⟨hslash.trans (Path.startsWith_slash_join_iff h _), mt hempty.mp (Path.join_ne_empty h _)⟩

theorem startsWith_slash_of_prepare {name basePath : String} {d : Descriptor}
    (hc : compile name basePath d = .ok o) (h : basePath.startsWith "/") {q : Request}
    (hq : o.prepare a = .ok q) : q.path.startsWith "/" := by
  have hne : basePath ≠ "" := by
    rintro rfl
    simp at h
  exact (path_of_prepare hc hne hq).1.mpr h

theorem verify_of_prepare (ho : o.Bound) {q : Request} (h : o.prepare a = .ok q) :
    q.verify = .ok () := by
  obtain ⟨-, rfl⟩ := (prepare_eq_ok_iff ho).mp h
  exact verify_request o a

theorem plain_of_prepare (ho : o.Bound) {q : Request} (h : o.prepare a = .ok q) : q.Plain := by
  obtain ⟨-, rfl⟩ := (prepare_eq_ok_iff ho).mp h
  simp [Request.Plain, request]

end Operation

namespace Resource

theorem bound_of_build {p : Plan} {r : Resource} (h : p.build = .ok r) {o : Operation}
    (ho : o ∈ r.operations) : o.Bound :=
  Operation.bound_of_compile ((Plan.registered_of_build h).2.compiled o ho).2

theorem exists_operation_of_prepare {p : Plan} {r : Resource} (h : p.build = .ok r) {name : String}
    {a : Arguments} {q : Request} (hq : r.prepare name a = .ok q) :
    ∃ o, r.operation? name = some o ∧
      Operation.compile o.name p.basePath o.descriptor = .ok o ∧ o.prepare a = .ok q := by
  obtain ⟨o, ho, hprepare⟩ := Except.bind_eq_ok_iff.mp hq
  have hfound := operation_eq_ok_iff.mp ho
  have hmem : o ∈ r.operations := (operation?_eq_some hfound).1
  exact ⟨o, hfound, ((Plan.registered_of_build h).2.compiled o hmem).2, hprepare⟩

/-- What is computed of a plan, an operation and its request is true of ones that exist. -/
theorem exists_prepared {β : Type} {p : Plan} {name : String} {a : Arguments}
    {f : Resource → Operation → Request → β} {b : β}
    (h : (p.build.toOption.bind fun r => (r.operation? name).bind fun o =>
      (o.prepare a).toOption.map (f r o)) = some b) :
    ∃ r o q, p.build = .ok r ∧ r.operation? name = some o ∧ o.prepare a = .ok q ∧
      r.prepare name a = .ok q ∧ f r o q = b := by
  obtain ⟨r, hr, h⟩ := Option.bind_eq_some_iff.mp h
  obtain ⟨o, ho, h⟩ := Option.bind_eq_some_iff.mp h
  obtain ⟨q, hq, h⟩ := Option.map_eq_some_iff.mp h
  have hprepare := Except.toOption_eq_some_iff.mp hq
  exact ⟨r, o, q, Except.toOption_eq_some_iff.mp hr, ho, hprepare,
    Except.bind_eq_ok_iff.mpr ⟨o, operation_eq_ok_iff.mpr ho, hprepare⟩, h⟩

theorem verify_of_prepare_of_build {p : Plan} {r : Resource} (h : p.build = .ok r) {name : String}
    {a : Arguments} {q : Request} (hq : r.prepare name a = .ok q) : q.verify = .ok () := by
  obtain ⟨o, -, hcompile, hprepare⟩ := exists_operation_of_prepare h hq
  exact Operation.verify_of_prepare (Operation.bound_of_compile hcompile) hprepare

/-- An operation of a built resource fails on the arguments of a call alone: on the first of its URL
parameters that they lack. What it prepares is a legal request. -/
theorem prepare_lacking_iff {p : Plan} {r : Resource}
    (h : p.build = .ok r) (a : Arguments) :
    (∀ o ∈ r.operations,
      r.operation? o.name = some o ∧
      ((∃ e, o.prepare a = .error e) ↔ ∃ name ∈ o.descriptor.urlParams, a.Lacks name) ∧
      (∀ e, o.prepare a = .error e → ∃ before name after,
        o.descriptor.urlParams = before ++ name :: after ∧ (∀ n ∈ before, ¬ a.Lacks n) ∧
          a.Lacks name ∧ e = .missingArgument o.name name) ∧
      (∀ values, o.urlValues a = .ok values →
        ∃ path, o.template.render (values.lookup ·) = .ok path) ∧
      (∀ q, o.prepare a = .ok q → q.verify = .ok ()) ∧
      ∀ (c : Connection) (t : Transport) (e : RequestError),
        (c.fetch t (o.prepare a)).result ≠ .error (.transport (.invalid e))) ∧
    ∀ (c : Connection) (t : Transport) (name : String) (e : RequestError),
      (c.call t r ⟨name, a⟩).result ≠ .error (.transport (.invalid e)) := by
  constructor
  · intro o ho
    have hbound := bound_of_build h ho
    have hverify : ∀ q, o.prepare a = .ok q → q.verify = .ok () := by
      intro q hq
      exact Operation.verify_of_prepare hbound hq
    refine ⟨operation?_of_mem h ho, Operation.prepare_fails_iff hbound, ?_, ?_, hverify, ?_⟩
    · intro e he
      exact (Operation.prepare_eq_error_iff hbound).mp he
    · intro values hvalues
      exact Operation.exists_path_of_urlValues hbound hvalues
    · intro c t e
      exact Connection.fetch_result_ne_invalid hverify e
  · intro c t name e
    apply Connection.fetch_result_ne_invalid
    intro q hq
    exact verify_of_prepare_of_build h hq

/-- An array without scalars has no text, below a base path with a placeholder of its own. -/
theorem skip_lacking_id :
    let p : Plan := {
      basePath := "/users/" ++ Path.slot "user_id" ++ "/orders"
      methods := [("skip", {
        method := .patch, path := some (Path.slot "id" ++ "/skip")
        urlParams := ["user_id", "id"] })] }
    let a := Arguments.ofPairs [("id", .array [.null]), ("user_id", .int 7)]
    ∃ r o, p.build = .ok r ∧ o ∈ r.operations ∧ a.Lacks "id" ∧ ∃ e, o.prepare a = .error e := by
  intro p a
  have hb : p.build = .ok ⟨p.basePath, [⟨"skip", p.basePath,
      { method := .patch, path := some (Path.slot "id" ++ "/skip")
        urlParams := ["user_id", "id"] },
      ⟨[.literal "/users/", .placeholder "user_id", .literal "/orders/", .placeholder "id",
        .literal "/skip"]⟩⟩]⟩ := by decide +kernel
  have hlacks : a.Lacks "id" := by decide +kernel
  exact ⟨_, _, hb, List.mem_cons_self, hlacks,
    ((prepare_lacking_iff hb a).1 _ List.mem_cons_self).2.1.mpr
      ⟨"id", by simp, hlacks⟩⟩

end Resource
end RestClient
