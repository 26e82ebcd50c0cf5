import Mathlib.Data.List.Nodup
import RestClient.Proofs.Except
import RestClient.Resource.Basic

namespace RestClient

theorem firstRepeat?_eq_none_iff {seen names : List String} :
    firstRepeat? seen names = none ↔ names.Nodup ∧ seen.Disjoint names := by
  induction names generalizing seen with
  | nil => simp [firstRepeat?]
  | cons name names ih =>
    by_cases h : name ∈ seen
    · simp [firstRepeat?, h, List.disjoint_cons_right]
    · simp only [firstRepeat?, List.contains_eq_mem, h, decide_false, Bool.false_eq_true,
        if_false, ih, List.nodup_cons, List.disjoint_cons_left, List.disjoint_cons_right,
        not_false_eq_true, true_and]
      exact ⟨fun ⟨hn, hm, hd⟩ => ⟨⟨hm, hn⟩, hd⟩, fun ⟨⟨hm, hn⟩, hd⟩ => ⟨hn, hm, hd⟩⟩

namespace Descriptor

/-- No parameter is declared twice, and the URL parameters are the placeholders of the path. -/
structure Sound (d : Descriptor) (basePath : String) (t : Path.Template) : Prop where
  nodup : ∀ kind, (d.params kind).Nodup
  disjoint : ∀ kind kind', kind ≠ kind' → (d.params kind).Disjoint (d.params kind')
  parse : Path.Template.parse (Path.join basePath (d.path.getD "")) = .ok t
  bound : ∀ name, name ∈ t.placeholders ↔ name ∈ d.urlParams

theorem checkUnique_eq_ok_iff {d : Descriptor} {kind : ParamKind} :
    d.checkUnique kind = .ok () ↔ (d.params kind).Nodup := by
  rw [checkUnique]
  cases h : firstRepeat? [] (d.params kind) with
  | none => simpa using (firstRepeat?_eq_none_iff.mp h).1
  | some name =>
    have hn : ¬ (d.params kind).Nodup := by
      intro hd
      have := firstRepeat?_eq_none_iff.mpr ⟨hd, List.disjoint_nil_left _⟩
      simp [h] at this
    simpa using hn

theorem checkDisjoint_eq_ok_iff {d : Descriptor} {first second : ParamKind} :
    d.checkDisjoint first second = .ok () ↔ (d.params first).Disjoint (d.params second) := by
  rw [checkDisjoint]
  cases h : (d.params first).find? (d.params second).contains with
  | none => simpa [List.disjoint_left] using List.find?_eq_none.mp h
  | some name =>
    have hs : name ∈ d.params second := by simpa using List.find?_some h
    have hn : ¬ (d.params first).Disjoint (d.params second) :=
      fun hd => hd (List.mem_of_find?_eq_some h) hs
    simpa using hn

theorem checkBound_eq_ok_iff {d : Descriptor} {t : Path.Template} {text : String} :
    d.checkBound t text = .ok () ↔ ∀ name, name ∈ t.placeholders ↔ name ∈ d.urlParams := by
  rw [checkBound]
  cases h : t.placeholders.find? (!d.urlParams.contains ·) with
  | some name =>
    have hu : name ∉ d.urlParams := by simpa using List.find?_some h
    have hn : ¬ ∀ name, name ∈ t.placeholders ↔ name ∈ d.urlParams :=
      fun hb => hu ((hb name).mp (List.mem_of_find?_eq_some h))
    simpa using hn
  | none =>
    have hp : ∀ name ∈ t.placeholders, name ∈ d.urlParams := by
      simpa using List.find?_eq_none.mp h
    cases h' : d.urlParams.find? (!t.placeholders.contains ·) with
    | some name =>
      have hu : name ∉ t.placeholders := by simpa using List.find?_some h'
      have hn : ¬ ∀ name, name ∈ t.placeholders ↔ name ∈ d.urlParams :=
        fun hb => hu ((hb name).mpr (List.mem_of_find?_eq_some h'))
      simpa using hn
    | none =>
      have hu : ∀ name ∈ d.urlParams, name ∈ t.placeholders := by
        simpa using List.find?_eq_none.mp h'
      simpa using fun name => ⟨hp name, hu name⟩

theorem templateAt_eq_ok_iff {d : Descriptor} {basePath : String} {t : Path.Template} :
    d.templateAt basePath = .ok t ↔ d.Sound basePath t := by
  simp only [templateAt, Except.bind_eq_ok_iff, Except.mapError_eq_ok_iff]
  constructor
  · rintro ⟨_, hu, _, hq, _, hp, _, huq, _, hup, _, hqp, t', hparse, _, hb, ht⟩
    obtain rfl := Except.ok.inj ht
    have huq := checkDisjoint_eq_ok_iff.mp huq
    have hup := checkDisjoint_eq_ok_iff.mp hup
    have hqp := checkDisjoint_eq_ok_iff.mp hqp
    refine ⟨?nodup, ?disjoint, hparse, checkBound_eq_ok_iff.mp hb⟩
    case nodup =>
      rintro (_ | _ | _)
      exacts [checkUnique_eq_ok_iff.mp hu, checkUnique_eq_ok_iff.mp hq,
        checkUnique_eq_ok_iff.mp hp]
    case disjoint =>
      rintro (_ | _ | _) (_ | _ | _) hne
      exacts [absurd rfl hne, huq, hup, List.disjoint_symm huq, absurd rfl hne, hqp,
        List.disjoint_symm hup, List.disjoint_symm hqp, absurd rfl hne]
  · intro h
    have hu (kind : ParamKind) := checkUnique_eq_ok_iff.mpr (h.nodup kind)
    have hd (first second : ParamKind) (hne : first ≠ second) :=
      checkDisjoint_eq_ok_iff.mpr (h.disjoint first second hne)
    exact ⟨(), hu .url, (), hu .query, (), hu .payload, (), hd .url .query (by decide),
      (), hd .url .payload (by decide), (), hd .query .payload (by decide),
      t, h.parse, (), checkBound_eq_ok_iff.mpr h.bound, rfl⟩

end Descriptor

namespace Operation

theorem compile_eq_ok_iff {name basePath : String} {d : Descriptor} {o : Operation} :
    compile name basePath d = .ok o ↔
      o.name = name ∧ o.basePath = basePath ∧ o.descriptor = d ∧ d.Sound basePath o.template := by
  simp only [compile, Except.bind_eq_ok_iff, Descriptor.templateAt_eq_ok_iff]
  constructor
  · rintro ⟨t, hd, h⟩
    obtain rfl := Except.ok.inj h
    exact ⟨rfl, rfl, rfl, hd⟩
  · rintro ⟨rfl, rfl, rfl, hd⟩
    exact ⟨o.template, hd, rfl⟩

end Operation

namespace Resource

/-- The operations have names of their own, and each is a declared descriptor compiled under the
name of its declaration. -/
structure Registered (basePath : String) (declared : List (String × Descriptor))
    (os : List Operation) : Prop where
  nodup : (os.map (·.name)).Nodup
  compiled : ∀ o ∈ os, (o.name, o.descriptor) ∈ declared ∧
    Operation.compile o.name basePath o.descriptor = .ok o

namespace Plan

theorem insertByName_perm (o : Operation) (os : List Operation) :
    (insertByName o os).Perm (o :: os) := by
  induction os with
  | nil => exact List.Perm.refl _
  | cons o' os ih =>
    rw [insertByName]
    split
    · exact List.Perm.refl _
    · exact (ih.cons o').trans (List.Perm.swap o o' os)

theorem add_eq_ok_iff {basePath : String} {os os' : List Operation} {name : String}
    {d : Descriptor} :
    add basePath os (name, d) = .ok os' ↔
      name ≠ "" ∧ name ∉ os.map (·.name) ∧
        ∃ o, Operation.compile name basePath d = .ok o ∧ insertByName o os = os' := by
  by_cases hempty : name = ""
  · simp [add, hempty]
  by_cases hdup : os.any (·.name == name)
  · have : name ∈ os.map (·.name) := by simpa using hdup
    simp [add, hempty, hdup, this]
  · have : name ∉ os.map (·.name) := by simpa using hdup
    simp only [add, String.isEmpty_iff, hempty, if_false, hdup, Bool.false_eq_true]
    cases h : Operation.compile name basePath d with
    | error e => simp
    | ok o => simp [hempty, this]

theorem registered_add {basePath : String} {declared : List (String × Descriptor)}
    {os os' : List Operation} {entry : String × Descriptor} (hmem : entry ∈ declared)
    (hos : Registered basePath declared os) (h : add basePath os entry = .ok os') :
    Registered basePath declared os' := by
  obtain ⟨name, d⟩ := entry
  obtain ⟨-, hnew, o, hcompile, rfl⟩ := add_eq_ok_iff.mp h
  obtain ⟨rfl, -, rfl, -⟩ := Operation.compile_eq_ok_iff.mp hcompile
  have hperm := insertByName_perm o os
  constructor
  · rw [(hperm.map _).nodup_iff]
    exact List.nodup_cons.mpr ⟨hnew, hos.nodup⟩
  · intro o' ho'
    rcases List.mem_cons.mp (hperm.mem_iff.mp ho') with rfl | hold
    · exact ⟨hmem, hcompile⟩
    · exact hos.compiled o' hold

theorem registered_of_foldlM {basePath : String} {declared : List (String × Descriptor)}
    {os : List Operation} (h : declared.foldlM (add basePath) [] = .ok os) :
    Registered basePath declared os := by
  have hstart : Registered basePath declared [] := ⟨List.nodup_nil, by simp⟩
  exact Except.foldlM_invariant (fun _ hreg _ hmem _ hadd => registered_add hmem hreg hadd) hstart h

theorem registered_of_build {p : Plan} {r : Resource} (h : p.build = .ok r) :
    r.basePath = p.basePath ∧ Registered p.basePath p.declared r.operations := by
  rw [build] at h
  split at h
  · cases h
  obtain ⟨os, hos, hr⟩ := Except.bind_eq_ok_iff.mp h
  obtain rfl := Except.ok.inj hr
  exact ⟨rfl, registered_of_foldlM hos⟩

end Plan

theorem operation?_eq_some {r : Resource} {name : String} {o : Operation}
    (h : r.operation? name = some o) : o ∈ r.operations ∧ o.name = name :=
  ⟨List.mem_of_find?_eq_some h, by simpa using List.find?_some h⟩

theorem operation_eq_ok_iff {r : Resource} {name : String} {o : Operation} :
    r.operation name = .ok o ↔ r.operation? name = some o := by
  rw [operation]
  cases r.operation? name <;> simp

theorem operation?_of_nodup {r : Resource} (hnodup : (r.operations.map (·.name)).Nodup)
    {o : Operation} (ho : o ∈ r.operations) : r.operation? o.name = some o := by
  cases hfind : r.operation? o.name with
  | none => simpa using List.find?_eq_none.mp hfind o ho
  | some o' =>
    obtain ⟨hmem, hname⟩ := operation?_eq_some hfind
    exact congrArg some (List.inj_on_of_nodup_map hnodup hmem ho hname)

/-- Every operation of a built resource is found under its name. -/
theorem operation?_of_mem {p : Plan} {r : Resource} (h : p.build = .ok r) {o : Operation}
    (ho : o ∈ r.operations) : r.operation? o.name = some o :=
  operation?_of_nodup (Plan.registered_of_build h).2.nodup ho

end Resource
end RestClient
