import RestClient.Proofs.Entries.Lookup
import RestClient.Proofs.Resource.Compilation
import RestClient.Resource.Operation

namespace RestClient

namespace Arguments

/-- The arguments that are given, that is all but the null ones. -/
def given (a : Arguments) : Entries Json := a.entries.filter (!·.2.isNull)

variable {a b : Arguments}

theorem mem_given_iff {name : String} {v : Json} :
    (name, v) ∈ a.given ↔ a.value? name = some v := by
  rw [given, List.mem_filter, Entries.mem_iff_lookup a.nodup_keys, value?_eq_some_iff, get?,
    Bool.not_eq_true', ← Bool.not_eq_true, Json.isNull_iff]

theorem value?_congr {name : String} (h : ∀ v, (name, v) ∈ a.given ↔ (name, v) ∈ b.given) :
    a.value? name = b.value? name := by
  apply Option.ext
  intro v
  rw [← mem_given_iff, ← mem_given_iff, h]

end Arguments

namespace Descriptor

/-- The names that are looked up in the arguments. -/
def lookedUp (d : Descriptor) : List String :=
  d.urlParams ++ d.queryParams ++ if d.method.carriesBody then d.payload else []

/-- There is a body, and it takes the arguments that go neither into the path nor into the query. -/
def takesRest (d : Descriptor) : Bool := d.method.carriesBody && d.payloadParams.isNone

/-- The arguments that are left for such a body. -/
def rest (d : Descriptor) (a : Arguments) : Entries Json :=
  a.given.filter fun (name, _) => !d.urlParams.contains name && !d.queryParams.contains name

/-- The arguments agree in all that the descriptor asks for. -/
structure Agree (d : Descriptor) (a b : Arguments) : Prop where
  lookedUp : ∀ name ∈ d.lookedUp, a.value? name = b.value? name
  rest : d.takesRest → d.rest a = d.rest b

end Descriptor

namespace Operation

variable {o : Operation} {d : Descriptor} {a b : Arguments}

theorem bodyFields_of_none (h : d.payloadParams = none) : bodyFields d a = d.rest a := by
  rw [Descriptor.rest, Arguments.given, List.filter_filter]
  simp only [bodyFields, h]
  congr 1
  funext e
  rw [Bool.and_assoc, Bool.and_comm]

/-- The path of the request for the arguments, which alone decides whether there is one. -/
def path? (o : Operation) (a : Arguments) : Except PreconditionError String := do
  let values ← o.urlValues a
  (o.template.render (values.lookup ·)).mapError fun e => .missingArgument o.name e.placeholder

theorem prepare_eq_map (o : Operation) (a : Arguments) :
    o.prepare a = (o.path? a).map fun path => {
      method := o.descriptor.method
      path
      query := queryFields o.descriptor a
      body := if o.descriptor.method.carriesBody then some (bodyFields o.descriptor a) else none
      bodyType :=
        if o.descriptor.method.carriesBody then some o.descriptor.bodyType else none } := by
  rw [prepare, path?]
  cases o.urlValues a with
  | error e => rfl
  | ok values =>
    simp only [Except.ok_bind]
    cases o.template.render (values.lookup ·) <;> rfl

theorem path?_congr (h : ∀ name ∈ o.descriptor.urlParams, a.value? name = b.value? name) :
    o.path? a = o.path? b := by
  have hvalues : o.urlValues a = o.urlValues b := by
    apply Except.mapM_congr
    intro name hname
    rw [urlText?, urlText?, h name hname]
  rw [path?, path?, hvalues]

theorem queryFields_congr (h : ∀ name ∈ d.queryParams, a.value? name = b.value? name) :
    queryFields d a = queryFields d b := by
  apply List.filterMap_congr
  intro name hname
  rw [h name hname]

theorem bodyFields_congr (hcarries : d.method.carriesBody) (h : d.Agree a b) :
    bodyFields d a = bodyFields d b := by
  cases hp : d.payloadParams with
  | none =>
    rw [bodyFields_of_none hp, bodyFields_of_none hp]
    exact h.rest (by simp [Descriptor.takesRest, hcarries, hp])
  | some names =>
    simp only [bodyFields, hp]
    apply List.filterMap_congr
    intro name hname
    rw [h.lookedUp name (by simp [Descriptor.lookedUp, Descriptor.payload, hcarries, hp, hname])]

theorem prepare_congr (h : o.descriptor.Agree a b) : o.prepare a = o.prepare b := by
  have hurl : ∀ name ∈ o.descriptor.urlParams, a.value? name = b.value? name := by
    intro name hname
    exact h.lookedUp name (by simp [Descriptor.lookedUp, hname])
  have hquery : ∀ name ∈ o.descriptor.queryParams, a.value? name = b.value? name := by
    intro name hname
    exact h.lookedUp name (by simp [Descriptor.lookedUp, hname])
  rw [prepare_eq_map, prepare_eq_map, path?_congr hurl, queryFields_congr hquery]
  by_cases hcarries : o.descriptor.method.carriesBody
  · rw [bodyFields_congr hcarries h]
  · simp only [if_neg hcarries]

theorem agree_of_given_eq (h : a.given = b.given) (d : Descriptor) : d.Agree a b where
  lookedUp _ _ := Arguments.value?_congr fun v => by rw [h]
  rest _ := by rw [Descriptor.rest, Descriptor.rest, h]

theorem agree_of_perm_lookedUp (hrest : d.takesRest = false)
    (h : (a.given.filter fun e => d.lookedUp.contains e.1).Perm
      (b.given.filter fun e => d.lookedUp.contains e.1)) : d.Agree a b where
  lookedUp name hname := by
    apply Arguments.value?_congr
    intro v
    have hmem := h.mem_iff (a := (name, v))
    simpa [List.mem_filter, hname] using hmem
  rest htakes := by
    rw [hrest] at htakes
    cases htakes

/-- Where a body takes the rest, a new order of the arguments is a new order of the body's fields,
and nothing else changes. -/
theorem prepare_of_perm (htakes : o.descriptor.takesRest) (h : a.given.Perm b.given) :
    (∀ e, o.prepare a = .error e → o.prepare b = .error e) ∧
    ∀ q, o.prepare a = .ok q → ∃ fields fields', q.body = some fields ∧ fields.Perm fields' ∧
      o.prepare b = .ok { q with body := some fields' } := by
  have hvalue (name : String) : a.value? name = b.value? name :=
    Arguments.value?_congr fun v => h.mem_iff
  rw [Descriptor.takesRest, Bool.and_eq_true, Option.isNone_iff_eq_none] at htakes
  obtain ⟨hcarries, hp⟩ := htakes
  have hbody : (bodyFields o.descriptor a).Perm (bodyFields o.descriptor b) := by
    rw [bodyFields_of_none hp, bodyFields_of_none hp]
    exact h.filter _
  have hpath : o.path? a = o.path? b := path?_congr fun name _ => hvalue name
  have hquery : queryFields o.descriptor a = queryFields o.descriptor b :=
    queryFields_congr fun name _ => hvalue name
  rw [prepare_eq_map, prepare_eq_map, hpath, hquery]
  simp only [if_pos hcarries]
  cases o.path? b with
  | error e => exact ⟨fun _ he => he, fun _ hq => by cases hq⟩
  | ok path =>
    refine ⟨fun _ he => (by cases he), ?_⟩
    rintro _ ⟨⟩
    exact ⟨_, _, rfl, hbody, rfl⟩

/-- The result of an operation depends on the arguments that it asks for, and on nothing else. Null
arguments make no difference. Unless a body takes the rest, other names and the order of the
arguments make none; and if one does, the order of the arguments is the order of its fields. -/
theorem prepare_dependence (o : Operation) (a b : Arguments) :
    (o.descriptor.Agree a b → o.prepare a = o.prepare b) ∧
    (a.given = b.given → o.prepare a = o.prepare b) ∧
    (o.descriptor.takesRest = false →
      (a.given.filter fun e => o.descriptor.lookedUp.contains e.1).Perm
        (b.given.filter fun e => o.descriptor.lookedUp.contains e.1) →
      o.prepare a = o.prepare b) ∧
    (o.descriptor.takesRest → a.given.Perm b.given →
      (∀ e, o.prepare a = .error e ↔ o.prepare b = .error e) ∧
      ∀ q, o.prepare a = .ok q → ∃ fields fields', q.body = some fields ∧ fields.Perm fields' ∧
        o.prepare b = .ok { q with body := some fields' }) := by
  refine ⟨prepare_congr, ?nulls, ?asked, ?order⟩
  case nulls =>
    intro h
    exact prepare_congr (agree_of_given_eq h _)
  case asked =>
    intro hrest h
    exact prepare_congr (agree_of_perm_lookedUp hrest h)
  case order =>
    intro htakes h
    obtain ⟨herror, hok⟩ := prepare_of_perm htakes h
    exact ⟨fun e => ⟨herror e, (prepare_of_perm htakes h.symm).1 e⟩, hok⟩

theorem body_field_order :
    let o : Operation := ⟨"update", "/orders",
      { method := .patch, path := some (Path.slot "id"), urlParams := ["id"]
        queryParams := ["notify"] },
      ⟨[.literal "/orders/", .placeholder "id"]⟩⟩
    let a := Arguments.ofPairs
      [("notify", .bool true), ("note", .string "x"), ("state", .int 1), ("id", .int 7)]
    let b := Arguments.ofPairs [("gone", .null), ("notify", .bool true), ("state", .int 1),
      ("note", .string "x"), ("page", .null), ("id", .int 7)]
    o.descriptor.takesRest ∧ a.given.Perm b.given ∧
      ∃ (q : Request) (fields fields' : Entries Json), o.prepare a = .ok q ∧ q.body = some fields ∧
        fields.keys = ["note", "state"] ∧ fields.Perm fields' ∧ fields'.keys = ["state", "note"] ∧
        o.prepare b = .ok { q with body := some fields' } := by
  intro o a b
  have htakes : o.descriptor.takesRest := rfl
  have ha : a.given =
      [("notify", .bool true), ("note", .string "x"), ("state", .int 1), ("id", .int 7)] := by
    rfl
  have hb : b.given =
      [("notify", .bool true), ("state", .int 1), ("note", .string "x"), ("id", .int 7)] := by
    rfl
  have hperm : a.given.Perm b.given := by
    rw [ha, hb]
    exact (List.Perm.swap _ _ _).cons _
  have hbodies : ((o.prepare a).toOption.map fun q => q.body.map Entries.keys) =
        some (some ["note", "state"]) ∧
      ((o.prepare b).toOption.map fun q => q.body.map Entries.keys) =
        some (some ["state", "note"]) := by
    decide +kernel
  obtain ⟨q, hq, hkeys⟩ := Option.map_eq_some_iff.mp hbodies.1
  have hq : o.prepare a = .ok q := Except.toOption_eq_some_iff.mp hq
  obtain ⟨-, -, -, horder⟩ := prepare_dependence o a b
  obtain ⟨fields, fields', hfields, hsame, hprepared⟩ := (horder htakes hperm).2 q hq
  have hkeys' := hbodies.2
  rw [hprepared] at hkeys'
  rw [hfields] at hkeys
  exact ⟨htakes, hperm, q, fields, fields', hq, hfields, Option.some.inj hkeys, hsame,
    Option.some.inj (Option.some.inj hkeys'), hprepared⟩

end Operation
end RestClient
