import RestClient.Proofs.Entries.Order
import RestClient.Proofs.Resource.Registry
import RestClient.Proofs.Text.Bytes

namespace RestClient
namespace Resource

/-- One step in the making of a plan: basic methods that are included, or a method with a descriptor
of its own. -/
inductive Declaration where
  | basics (ms : List BasicMethod)
  | method (name : String) (d : Descriptor)

namespace Declaration

def addTo (p : Plan) : Declaration → Plan
  | basics ms => p.includeBasics ms
  | method name d => p.method name d

def included : Declaration → List BasicMethod
  | basics ms => ms
  | method _ _ => []

def methods : Declaration → List (String × Descriptor)
  | basics _ => []
  | method name d => [(name, d)]

end Declaration

namespace Plan

def ofDeclarations (basePath : String) (ds : List Declaration) : Plan :=
  ds.foldl Declaration.addTo { basePath }

/-- The basic methods in the order in which they are first included, then the other methods in the
order in which they are declared. -/
def declaredBy (ds : List Declaration) : List (String × Descriptor) :=
  (ds.flatMap Declaration.included).eraseDups.map (fun m => (m.name, m.descriptor)) ++
    ds.flatMap Declaration.methods

theorem includeBasics_eq {p : Plan} {ms' : List BasicMethod} (h : p.basics = ms'.eraseDups)
    (ms : List BasicMethod) : p.includeBasics ms = { p with basics := (ms' ++ ms).eraseDups } := by
  induction ms generalizing p ms' with
  | nil =>
    rw [List.append_nil, ← h]
    rfl
  | cons m ms ih =>
    have hcontains : p.basics.contains m = ms'.contains m := by
      rw [Bool.eq_iff_iff, List.contains_iff_mem, List.contains_iff_mem, h, List.mem_eraseDups]
    have hnext : (if p.basics.contains m then p else { p with basics := p.basics ++ [m] }) =
        { p with basics := (ms' ++ [m]).eraseDups } := by
      rw [eraseDups_append_singleton, hcontains, ← h]
      split <;> rfl
    have hrest := @ih { p with basics := (ms' ++ [m]).eraseDups } (ms' ++ [m]) rfl
    rw [List.append_assoc, List.singleton_append] at hrest
    rw [includeBasics, List.foldl_cons, hnext]
    exact hrest

theorem foldl_addTo {p : Plan} {ms : List BasicMethod} (h : p.basics = ms.eraseDups)
    (ds : List Declaration) :
    ds.foldl Declaration.addTo p = {
      basePath := p.basePath
      basics := (ms ++ ds.flatMap Declaration.included).eraseDups
      methods := p.methods ++ ds.flatMap Declaration.methods } := by
  induction ds generalizing p ms with
  | nil => simp [← h]
  | cons d ds ih =>
    cases d with
    | basics ms' =>
      rw [List.foldl_cons, Declaration.addTo, includeBasics_eq h,
        @ih { p with basics := (ms ++ ms').eraseDups } (ms ++ ms') rfl]
      simp [Declaration.included, Declaration.methods]
    | method name d =>
      rw [List.foldl_cons, Declaration.addTo, @ih (p.method name d) ms h]
      simp [Declaration.included, Declaration.methods, method]

@[simp] theorem basePath_ofDeclarations (basePath : String) (ds : List Declaration) :
    (ofDeclarations basePath ds).basePath = basePath := by
  rw [ofDeclarations, @foldl_addTo { basePath } [] rfl]

@[simp] theorem declared_ofDeclarations (basePath : String) (ds : List Declaration) :
    (ofDeclarations basePath ds).declared = declaredBy ds := by
  rw [ofDeclarations, @foldl_addTo { basePath } [] rfl]
  simp [declared, declaredBy]

theorem declaredBy_perm {ds ds' : List Declaration}
    (hbasics : ∀ m, m ∈ ds.flatMap Declaration.included ↔ m ∈ ds'.flatMap Declaration.included)
    (hmethods : (ds.flatMap Declaration.methods).Perm (ds'.flatMap Declaration.methods)) :
    (declaredBy ds).Perm (declaredBy ds') := by
  have hincluded : (ds.flatMap Declaration.included).eraseDups.Perm
      (ds'.flatMap Declaration.included).eraseDups := by
    rw [List.perm_ext_iff_of_nodup (nodup_eraseDups _) (nodup_eraseDups _)]
    intro m
    rw [List.mem_eraseDups, List.mem_eraseDups, hbasics]
  exact (hincluded.map _).append hmethods

/-- What is built depends on the declarations alone and not on their order. -/
theorem build_of_perm {p p' : Plan} (hbase : p.basePath = p'.basePath)
    (h : p.declared.Perm p'.declared) (r : Resource) : p.build = .ok r ↔ p'.build = .ok r := by
  rw [build_eq_ok_iff, build_eq_ok_iff, hbase]
  constructor
  · rintro ⟨hne, hacceptable, hr, hregistry⟩
    exact ⟨hne, acceptable_perm h hacceptable, hr, registry_perm h hregistry⟩
  · rintro ⟨hne, hacceptable, hr, hregistry⟩
    exact ⟨hne, acceptable_perm h.symm hacceptable, hr, registry_perm h.symm hregistry⟩

end Plan

theorem mem_operationNames_iff {basePath : String} {declared : List (String × Descriptor)}
    {r : Resource} (hacceptable : Acceptable basePath declared)
    (hregistry : Registry basePath declared r.operations) {name : String} :
    name ∈ r.operationNames ↔ name ∈ declared.map Prod.fst := by
  rw [operationNames, List.mem_map, List.mem_map]
  constructor
  · rintro ⟨o, ho, rfl⟩
    obtain ⟨d, hmem, -⟩ := (hregistry.mem_iff o).mp ho
    exact ⟨(o.name, d), hmem, rfl⟩
  · rintro ⟨⟨name, d⟩, hmem, rfl⟩
    obtain ⟨t, ht⟩ := hacceptable.sound (name, d) hmem
    have hcompile : Operation.compile name basePath d = .ok ⟨name, basePath, d, t⟩ :=
      Operation.compile_eq_ok_iff.mpr
        ⟨rfl, rfl, rfl, Descriptor.templateAt_eq_ok_iff.mp ht⟩
    exact ⟨⟨name, basePath, d, t⟩, (hregistry.mem_iff _).mpr ⟨d, hmem, hcompile⟩, rfl⟩

/-- Building fails on an empty base path, else with the error of the first declaration that is
refused, and in no other case. A built resource has the declared names in the order of their bytes,
and under each of them the declaration of that name, compiled at the base path. -/
theorem build_outcome (basePath : String) (ds : List Declaration) :
    let p := Plan.ofDeclarations basePath ds
    let declared := Plan.declaredBy ds
    (∀ e, p.build = .error e ↔ basePath = "" ∧ e = .emptyBasePath ∨
      basePath ≠ "" ∧ FirstRefused basePath declared e) ∧
    ((∃ r, p.build = .ok r) ↔ basePath ≠ "" ∧ Acceptable basePath declared) ∧
    ∀ r, p.build = .ok r →
      r.basePath = basePath ∧
      r.operationNames.Pairwise (fun name name' =>
        Text.Utf8.encode name.toList < Text.Utf8.encode name'.toList) ∧
      (∀ name, name ∈ r.operationNames ↔ name ∈ declared.map Prod.fst) ∧
      ∀ name o, r.operation? name = some o ↔
        ∃ d, (name, d) ∈ declared ∧ Operation.compile name basePath d = .ok o := by
  intro p declared
  have hbase : p.basePath = basePath := Plan.basePath_ofDeclarations basePath ds
  have hdeclared : p.declared = declared := Plan.declared_ofDeclarations basePath ds
  refine ⟨fun e => ?_, ?_, fun r hr => ?_⟩
  · rw [Plan.build_eq_error_iff, hbase, hdeclared]
  · rw [Plan.exists_build_iff, hbase, hdeclared]
  · obtain ⟨-, hacceptable, hrbase, hregistry⟩ := Plan.build_eq_ok_iff.mp hr
    rw [hdeclared, hbase] at hacceptable hregistry
    refine ⟨hrbase.trans hbase, ?_, fun name => mem_operationNames_iff hacceptable hregistry,
      fun name o => operation?_eq_some_iff hregistry⟩
    exact List.pairwise_map.mpr (hregistry.sorted.imp Text.Utf8.encode_lt_of_lt)

/-- A method is declared before the basic methods, one of which is included twice, and a name that
is not of ASCII comes last. -/
theorem mixed_build_outcome :
    let skip : Descriptor := {
      method := .patch, path := some (Path.slot "id" ++ "/skip"), urlParams := ["id"] }
    let ds : List Declaration := [.method "skip" skip, .basics [.retrieve, .create],
      .method "änderung" { method := .get }, .basics [.create, .list]]
    ∃ r, (Plan.ofDeclarations "/orders/" ds).build = .ok r ∧
      r.operationNames.Pairwise (fun name name' =>
        Text.Utf8.encode name.toList < Text.Utf8.encode name'.toList) ∧
      ∀ o, r.operation? "skip" = some o ↔
        ∃ d, ("skip", d) ∈ Plan.declaredBy ds ∧ Operation.compile "skip" "/orders/" d = .ok o := by
  intro skip ds
  have hbuilt : (Plan.ofDeclarations "/orders/" ds).build.toOption.isSome := by decide +kernel
  obtain ⟨r, hr⟩ := Option.isSome_iff_exists.mp hbuilt
  have hr := Except.toOption_eq_some_iff.mp hr
  obtain ⟨-, hsorted, -, hfound⟩ :=
    (build_outcome "/orders/" ds).2.2 r hr
  exact ⟨r, hr, hsorted, hfound "skip"⟩

/-- Plans with the same basic methods and, in any order, the same other methods build alike: if one
is built then so is the other, to a resource of the same names, whose operations have the same
templates and descriptors and prepare the same requests. -/
theorem build_perm {ds ds' : List Declaration}
    (hbasics : ∀ m, m ∈ ds.flatMap Declaration.included ↔ m ∈ ds'.flatMap Declaration.included)
    (hmethods : (ds.flatMap Declaration.methods).Perm (ds'.flatMap Declaration.methods))
    (basePath : String) :
    let p := Plan.ofDeclarations basePath ds
    let p' := Plan.ofDeclarations basePath ds'
    ((∃ r, p.build = .ok r) ↔ ∃ r', p'.build = .ok r') ∧
    ∀ r r', p.build = .ok r → p'.build = .ok r' →
      r.operationNames = r'.operationNames ∧
      ∀ (name : String) (a : Arguments),
        (r.operation? name).map (·.template) = (r'.operation? name).map (·.template) ∧
        (r.operation? name).map (·.descriptor) = (r'.operation? name).map (·.descriptor) ∧
        (r.operation? name).map (·.prepare a) = (r'.operation? name).map (·.prepare a) := by
  intro p p'
  have hsame : ∀ r, p.build = .ok r ↔ p'.build = .ok r := by
    apply Plan.build_of_perm
    · simp only [p, p', Plan.basePath_ofDeclarations]
    · simpa only [p, p', Plan.declared_ofDeclarations] using Plan.declaredBy_perm hbasics hmethods
  refine ⟨exists_congr hsame, fun r r' hr hr' => ?_⟩
  obtain rfl : r = r' := Except.ok.inj (((hsame r).mp hr).symm.trans hr')
  exact ⟨rfl, fun name a => ⟨rfl, rfl, rfl⟩⟩

/-- The first plan includes its basic methods between two others and one of them twice, the second
one all of them at once and in another order. -/
theorem interleaved_build_perm :
    let skip : Descriptor := {
      method := .patch, path := some (Path.slot "id" ++ "/skip"), urlParams := ["id"] }
    let rate : Descriptor := { method := .post, payloadParams := some ["rating"] }
    let ds : List Declaration := [.method "skip" skip, .basics [.list, .create, .list],
      .method "rate" rate]
    let ds' : List Declaration := [.basics [.create, .list], .method "rate" rate,
      .method "skip" skip]
    (∀ m, m ∈ ds.flatMap Declaration.included ↔ m ∈ ds'.flatMap Declaration.included) ∧
      (ds.flatMap Declaration.methods).Perm (ds'.flatMap Declaration.methods) ∧
      ∃ r r', (Plan.ofDeclarations "/orders" ds).build = .ok r ∧
        (Plan.ofDeclarations "/orders" ds').build = .ok r' ∧
        r.operationNames = r'.operationNames := by
  intro skip rate ds ds'
  have hbasics (m : BasicMethod) :
      m ∈ ds.flatMap Declaration.included ↔ m ∈ ds'.flatMap Declaration.included := by
    cases m <;> decide
  have hmethods : (ds.flatMap Declaration.methods).Perm (ds'.flatMap Declaration.methods) :=
    List.Perm.swap _ _ _
  have hbuilt : (Plan.ofDeclarations "/orders" ds).build.toOption.isSome := by decide +kernel
  obtain ⟨r, hr⟩ := Option.isSome_iff_exists.mp hbuilt
  have hr := Except.toOption_eq_some_iff.mp hr
  obtain ⟨hboth, halike⟩ :=
    build_perm hbasics hmethods "/orders"
  obtain ⟨r', hr'⟩ := hboth.mp ⟨r, hr⟩
  exact ⟨hbasics, hmethods, r, r', hr, hr', (halike r r' hr hr').1⟩

end Resource
end RestClient
