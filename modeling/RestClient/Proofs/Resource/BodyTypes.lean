import RestClient.Proofs.Resource.Dependence
import RestClient.Proofs.Resource.Forms

namespace RestClient.Operation

variable {o : Operation} {name basePath : String} {d : Descriptor}

/-- The operation that sends its bodies in another form. -/
def withBodyType (o : Operation) (type : BodyType) : Operation :=
  { o with descriptor := { o.descriptor with bodyType := type } }

theorem compile_withBodyType (hc : compile name basePath d = .ok o) (type : BodyType) :
    compile name basePath { d with bodyType := type } = .ok (o.withBodyType type) := by
  obtain ⟨rfl, rfl, rfl, hd⟩ := compile_eq_ok_iff.mp hc
  exact compile_eq_ok_iff.mpr ⟨rfl, rfl, rfl, ⟨hd.nodup, hd.disjoint, hd.parse, hd.bound⟩⟩

theorem prepare_withBodyType (hcarries : o.descriptor.method.carriesBody) (type : BodyType)
    (a : Arguments) :
    (o.withBodyType type).prepare a =
      (o.prepare a).map fun q => { q with bodyType := some type } := by
  have hcarries' : (o.withBodyType type).descriptor.method.carriesBody := hcarries
  have hpath : (o.withBodyType type).path? a = o.path? a := rfl
  rw [prepare_eq_map, prepare_eq_map, hpath]
  cases o.path? a with
  | error e => rfl
  | ok path =>
    simp only [Except.map, if_pos hcarries, if_pos hcarries']
    rfl

theorem jsonBody_request (hd : o.descriptor.Sound basePath o.template)
    (a : Arguments) : (o.request a).jsonBody = .object ((o.request a).body.getD []) := by
  rw [Request.jsonBody, Entries.ofPairs_of_nodup (nodup_body_keys hd)]

/-- The requests of an operation that carries a body differ in the type of the body alone when that
is all that differs in its descriptor. The body's entries are the fields of the JSON object and,
each as a text, the fields of the form, in the same order. -/
theorem form_json_fields (hc : compile name basePath d = .ok o)
    (hcarries : d.method.carriesBody) (a : Arguments) :
    (∀ type, ∃ o', compile name basePath { d with bodyType := type } = .ok o' ∧
      o'.prepare a = (o.prepare a).map fun q => { q with bodyType := some type }) ∧
    ∀ q, o.prepare a = .ok q → ∃ fields, q.body = some fields ∧
      q.jsonBody = .object fields ∧
      q.formFields.keys = fields.keys ∧
      (∀ n v, (n, v) ∈ fields → q.jsonBody.get? n = some v) ∧
      ∀ n text, (n, text) ∈ q.formFields →
        ∃ v, q.jsonBody.get? n = some v ∧ v.paramText? = some text := by
  obtain ⟨-, -, rfl, hd⟩ := compile_eq_ok_iff.mp hc
  constructor
  · intro type
    exact ⟨_, compile_withBodyType hc type, prepare_withBodyType hcarries type a⟩
  intro q hq
  obtain ⟨-, rfl⟩ := (prepare_eq_ok_iff hd.bound).mp hq
  have hbody := body_request_of_carries (a := a) hcarries
  have hjson := jsonBody_request hd a
  have hforms := forall₂_formFields o a
  have hnodup := nodup_body_keys (a := a) hd
  rw [hbody, Option.getD_some] at hjson hforms hnodup
  have hget (n : String) (v : Json) (hmem : (n, v) ∈ bodyFields o.descriptor a) :
      (o.request a).jsonBody.get? n = some v := by
    rw [hjson]
    exact (Entries.mem_iff_lookup hnodup).mp hmem
  refine ⟨_, hbody, hjson, Request.keys_eq_of_forall₂ hforms, hget, ?_⟩
  intro n text hmem
  obtain ⟨v, hentry, htext⟩ := Request.mem_formFields.mp hmem
  rw [hbody, Option.getD_some] at hentry
  exact ⟨v, hget n v hentry, htext⟩

theorem nested_form_json_fields :
    let d : Descriptor := {
      method := .put, path := some (Path.slot "id"), urlParams := ["id"], queryParams := ["dry"] }
    let a := Arguments.ofPairs [("note", .string "x"), ("dry", .bool true), ("gone", .null),
      ("tags", .array [.int 1, .null, .string "a,b"]), ("id", .int 7),
      ("note", .object [("k", .null)])]
    ∃ o o' q, compile "note" "/notes" d = .ok o ∧ d.method.carriesBody ∧
      compile "note" "/notes" { d with bodyType := .json } = .ok o' ∧
      o.prepare a = .ok q ∧ o'.prepare a = .ok { q with bodyType := some .json } ∧
      q.formFields = [("note", "\x7b\"k\":null\x7d"), ("tags", "1,a,b")] ∧
      q.jsonBody.text =
        "\x7b\"note\":\x7b\"k\":null\x7d,\"tags\":[1,null,\"a,b\"]\x7d" ∧
      ∃ v, q.jsonBody.get? "tags" = some v ∧ v.paramText? = some "1,a,b" := by
  intro d a
  have hc : compile "note" "/notes" d =
      .ok ⟨"note", "/notes", d, ⟨[.literal "/notes/", .placeholder "id"]⟩⟩ := by
    decide +kernel
  have hcarries : d.method.carriesBody := rfl
  have hq := prepare_of_given (a := a) (bound_of_compile hc) (by decide +kernel)
  obtain ⟨hswitched, hsame⟩ := form_json_fields hc hcarries a
  obtain ⟨o', hc', hq'⟩ := hswitched .json
  obtain ⟨-, -, -, -, -, htexts⟩ := hsame _ hq
  rw [hq] at hq'
  exact ⟨_, o', _, hc, hcarries, hc', hq, hq', by decide +kernel, by decide +kernel,
    htexts "tags" "1,a,b" (by decide +kernel)⟩

end RestClient.Operation
