import RestClient.Proofs.Resource.Preparation

namespace RestClient

/-- Where a request carries arguments. -/
inductive Place where
  | path
  | query
  | body

/-- The names of the arguments that a request carries in a place. -/
def Operation.carried (o : Operation) (q : Request) : Place → List String
  | .path => o.template.placeholders
  | .query => q.query.keys
  | .body => (q.body.getD []).keys

namespace Arguments

/-- The fields are those of the names that are given, in the order of the names. -/
structure Gathers {α : Type} (a : Arguments) (names : List String) (f : Json → Option α)
    (fields : Entries α) : Prop where
  keys : fields.keys = names.filter a.contains
  values : ∀ name x, (name, x) ∈ fields → ∃ v, a.value? name = some v ∧ f v = some x

/-- The fields are all arguments that are given and have none of the names, in their order. -/
structure Leaves (a : Arguments) (names : List String) (fields : Entries Json) : Prop where
  order : fields.Sublist a.entries
  mem : ∀ name v, (name, v) ∈ fields ↔ a.value? name = some v ∧ name ∉ names

variable {α : Type} {a : Arguments}

theorem gathers_filterMap {f : Json → Option α} (hf : ∀ v, f v = none → v = .null)
    (a : Arguments) (names : List String) :
    a.Gathers names f (names.filterMap fun name => ((a.value? name).bind f).map (name, ·)) := by
  have hsome (name : String) : ((a.value? name).bind f).isSome = a.contains name := by
    rw [contains]
    cases hv : a.value? name with
    | none => rfl
    | some v =>
      have hnull : v ≠ .null := (value?_eq_some_iff.mp hv).2
      exact Option.isSome_iff_ne_none.mpr fun h => hnull (hf v h)
  constructor
  · rw [Entries.keys_filterMap]
    exact congrArg (names.filter ·) (funext hsome)
  · intro name x hmem
    obtain ⟨n, -, hx⟩ := List.mem_filterMap.mp hmem
    obtain ⟨y, hy, hpair⟩ := Option.map_eq_some_iff.mp hx
    obtain ⟨rfl, rfl⟩ := Prod.mk.inj hpair
    exact Option.bind_eq_some_iff.mp hy

theorem Gathers.nodup {names : List String} {f : Json → Option α} {fields : Entries α}
    (h : a.Gathers names f fields) (hn : names.Nodup) : fields.keys.Nodup :=
  h.keys ▸ hn.filter _

theorem Gathers.mem_names {names : List String} {f : Json → Option α} {fields : Entries α}
    (h : a.Gathers names f fields) {name : String} (hmem : name ∈ fields.keys) : name ∈ names :=
  (List.mem_filter.mp (h.keys ▸ hmem)).1

theorem Leaves.nodup {names : List String} {fields : Entries Json} (h : a.Leaves names fields) :
    fields.keys.Nodup :=
  (h.order.map Prod.fst).nodup a.nodup_keys

theorem Leaves.mem_keys {names : List String} {fields : Entries Json} (h : a.Leaves names fields)
    {name : String} : name ∈ fields.keys ↔ a.contains name ∧ name ∉ names := by
  simp only [Entries.mem_keys_iff, h.mem, exists_and_right, contains, Option.isSome_iff_exists]

end Arguments

namespace Operation

variable {d : Descriptor} {a : Arguments}

theorem gathers_queryFields (d : Descriptor) (a : Arguments) :
    a.Gathers d.queryParams Json.paramText? (queryFields d a) :=
  Arguments.gathers_filterMap (fun _ => Json.paramText?_eq_none_iff.mp) a d.queryParams

theorem gathers_bodyFields {names : List String} (h : d.payloadParams = some names) :
    a.Gathers names some (bodyFields d a) := by
  have hg := Arguments.gathers_filterMap (f := some) (fun v hv => by cases hv) a names
  simpa only [bodyFields, h, Option.bind_fun_some] using hg

theorem leaves_bodyFields (h : d.payloadParams = none) :
    a.Leaves (d.urlParams ++ d.queryParams) (bodyFields d a) := by
  simp only [bodyFields, h]
  constructor
  · exact List.filter_sublist
  · intro name v
    rw [List.mem_filter, Entries.mem_iff_lookup a.nodup_keys, Arguments.value?_eq_some_iff]
    simp [Arguments.get?, and_assoc, ← Json.isNull_iff]

variable {o : Operation}

theorem body_request_of_carries (h : o.descriptor.method.carriesBody) :
    (o.request a).body = some (bodyFields o.descriptor a) := by
  simp [request, h]

theorem body_request_of_not_carries (h : o.descriptor.method.carriesBody = false) :
    (o.request a).body = none := by
  simp [request, h]

theorem nodup_body_keys {basePath : String} (hd : o.descriptor.Sound basePath o.template) :
    ((o.request a).body.getD []).keys.Nodup := by
  cases hcarries : o.descriptor.method.carriesBody with
  | false => simp [body_request_of_not_carries hcarries]
  | true =>
    rw [body_request_of_carries hcarries]
    cases hp : o.descriptor.payloadParams with
    | none => exact (leaves_bodyFields hp).nodup
    | some names =>
      have hnames : names.Nodup := by
        simpa [Descriptor.params, Descriptor.payload, hp] using hd.nodup .payload
      exact (gathers_bodyFields hp).nodup hnames

/-- What a body takes is neither in the path nor in the query. -/
theorem not_mem_of_mem_body {basePath : String} (hd : o.descriptor.Sound basePath o.template)
    {name : String} (h : name ∈ o.carried (o.request a) .body) :
    name ∉ o.descriptor.urlParams ∧ name ∉ o.descriptor.queryParams := by
  cases hcarries : o.descriptor.method.carriesBody with
  | false => simp [carried, body_request_of_not_carries hcarries] at h
  | true =>
    rw [carried, body_request_of_carries hcarries, Option.getD_some] at h
    cases hp : o.descriptor.payloadParams with
    | none => simpa using ((leaves_bodyFields hp).mem_keys.mp h).2
    | some names =>
      have hname : name ∈ o.descriptor.params .payload := by
        simpa [Descriptor.params, Descriptor.payload, hp] using (gathers_bodyFields hp).mem_names h
      exact ⟨fun hu => hd.disjoint .url .payload (by decide) hu hname,
        fun hq => hd.disjoint .query .payload (by decide) hq hname⟩

theorem carried_unique {basePath : String} (hd : o.descriptor.Sound basePath o.template)
    {name : String} {p p' : Place} (h : name ∈ o.carried (o.request a) p)
    (h' : name ∈ o.carried (o.request a) p') : p = p' := by
  have hpath : name ∈ o.carried (o.request a) .path → name ∈ o.descriptor.urlParams :=
    (hd.bound name).mp
  have hquery : name ∈ o.carried (o.request a) .query → name ∈ o.descriptor.queryParams :=
    (gathers_queryFields o.descriptor a).mem_names
  have hbody : name ∈ o.carried (o.request a) .body →
      name ∉ o.descriptor.urlParams ∧ name ∉ o.descriptor.queryParams :=
    not_mem_of_mem_body hd
  have hdisjoint := hd.disjoint .url .query (by decide)
  -- Each pair of different places contradicts one of the descriptor's disjoint pairs of lists.
  cases p <;> cases p'
  case path.path | query.query | body.body => rfl
  case path.query => exact (hdisjoint (hpath h) (hquery h')).elim
  case query.path => exact (hdisjoint (hpath h') (hquery h)).elim
  case path.body => exact ((hbody h').1 (hpath h)).elim
  case body.path => exact ((hbody h).1 (hpath h')).elim
  case query.body => exact ((hbody h').2 (hquery h)).elim
  case body.query => exact ((hbody h).2 (hquery h')).elim

theorem exists_carried (ho : o.Bound) (hcarries : o.descriptor.method.carriesBody)
    (hp : o.descriptor.payloadParams = none) {name : String} (h : a.contains name) :
    ∃ p, name ∈ o.carried (o.request a) p := by
  by_cases hu : name ∈ o.descriptor.urlParams
  · exact ⟨.path, (ho name).mpr hu⟩
  by_cases hq : name ∈ o.descriptor.queryParams
  · refine ⟨.query, ?_⟩
    rw [carried, request, (gathers_queryFields o.descriptor a).keys]
    exact List.mem_filter.mpr ⟨hq, h⟩
  · refine ⟨.body, ?_⟩
    rw [carried, body_request_of_carries hcarries, Option.getD_some]
    exact (leaves_bodyFields hp).mem_keys.mpr ⟨h, by simp [hu, hq]⟩

/-- A prepared request carries what the descriptor says and nothing else: no argument goes to two
places or twice to one, and a body without a list of its own leaves none behind. -/
theorem prepare_places {name basePath : String} {d : Descriptor}
    (hc : compile name basePath d = .ok o) {q : Request} (hq : o.prepare a = .ok q) :
    o.template.render (urlText? a) = .ok q.path ∧
    a.Gathers d.queryParams Json.paramText? q.query ∧
    (d.method.carriesBody = false → q.body = none) ∧
    (d.method.carriesBody → ∀ names, d.payloadParams = some names →
      ∃ fields, q.body = some fields ∧ a.Gathers names some fields) ∧
    (d.method.carriesBody → d.payloadParams = none →
      ∃ fields, q.body = some fields ∧ a.Leaves (d.urlParams ++ d.queryParams) fields) ∧
    (∀ n p p', n ∈ o.carried q p → n ∈ o.carried q p' → p = p') ∧
    q.query.keys.Nodup ∧ (q.body.getD []).keys.Nodup ∧
    (d.method.carriesBody → d.payloadParams = none →
      ∀ n, a.contains n → ∃! p, n ∈ o.carried q p) := by
  obtain ⟨-, -, rfl, hd⟩ := compile_eq_ok_iff.mp hc
  obtain ⟨hgiven, rfl⟩ := (prepare_eq_ok_iff hd.bound).mp hq
  have hrender : o.template.render (urlText? a) = .ok (o.request a).path :=
    Path.Template.render_eq_ok fun n hn => urlText?_eq_some_getD (hgiven n ((hd.bound n).mp hn))
  have hquery := gathers_queryFields o.descriptor a
  refine ⟨hrender, hquery, body_request_of_not_carries, ?listed, ?unlisted, ?apart,
    hquery.nodup (hd.nodup .query), nodup_body_keys hd, ?once⟩
  case listed =>
    intro hcarries names hp
    exact ⟨_, body_request_of_carries hcarries, gathers_bodyFields hp⟩
  case unlisted =>
    intro hcarries hp
    exact ⟨_, body_request_of_carries hcarries, leaves_bodyFields hp⟩
  case apart =>
    intro n p p' h h'
    exact carried_unique hd h h'
  case once =>
    intro hcarries hp n hn
    obtain ⟨p, hmem⟩ := exists_carried hd.bound hcarries hp hn
    refine ⟨p, hmem, ?_⟩
    intro p' hmem'
    exact carried_unique hd hmem' hmem

theorem update_places :
    let d : Descriptor := {
      method := .patch, path := some (Path.slot "id"), urlParams := ["id"]
      queryParams := ["notify"] }
    let a := Arguments.ofPairs
      [("notify", .bool true), ("note", .string "a&b"), ("id", .int 7), ("state", .null)]
    ∃ o q, compile "update" "/orders" d = .ok o ∧ o.prepare a = .ok q ∧
      ∃! p, "note" ∈ o.carried q p := by
  intro d a
  have hc : compile "update" "/orders" d =
      .ok ⟨"update", "/orders", d, ⟨[.literal "/orders/", .placeholder "id"]⟩⟩ := by
    decide +kernel
  have hq := prepare_of_given (a := a) (bound_of_compile hc) (by decide +kernel)
  obtain ⟨-, -, -, -, -, -, -, -, honce⟩ := prepare_places hc hq
  exact ⟨_, _, hc, hq, honce rfl rfl "note" (by decide +kernel)⟩

end Operation
end RestClient
