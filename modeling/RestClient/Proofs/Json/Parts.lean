import RestClient.Json.Parser
import RestClient.Proofs.Entries.Lookup

namespace RestClient.Json

/-- What holds of a value because it holds of all values right inside it holds of every value. -/
@[elab_as_elim]
theorem induct {motive : Json → Prop} (null : motive .null) (bool : ∀ b, motive (.bool b))
    (number : ∀ n, motive (.number n)) (string : ∀ s, motive (.string s))
    (array : ∀ items, (∀ v ∈ items, motive v) → motive (.array items))
    (object : ∀ fields : Entries Json, (∀ f ∈ fields, motive f.2) → motive (.object fields))
    (v : Json) : motive v :=
  v.rec (motive_1 := motive) (motive_2 := fun items => ∀ v ∈ items, motive v)
    (motive_3 := fun fields => ∀ f ∈ fields, motive f.2) (motive_4 := fun f => motive f.2)
    null bool number string array object
    (by simp) (fun _ _ hv hvs => List.forall_mem_cons.mpr ⟨hv, hvs⟩)
    (by simp) (fun _ _ hf hfs => List.forall_mem_cons.mpr ⟨hf, hfs⟩) (fun _ _ hv => hv)

mutual

/-- The value itself and all values inside it. -/
def parts : Json → List Json
  | .array items => .array items :: itemParts items
  | .object fields => .object fields :: fieldParts fields
  | v => [v]

def itemParts : List Json → List Json
  | [] => []
  | v :: vs => parts v ++ itemParts vs

def fieldParts : List (String × Json) → List Json
  | [] => []
  | (_, v) :: fs => parts v ++ fieldParts fs

end

mutual

/-- How deep containers nest in the value. -/
def depth : Json → Nat
  | .array items => itemDepth items + 1
  | .object fields => fieldDepth fields + 1
  | _ => 0

/-- How deep containers nest in the items. -/
def itemDepth : List Json → Nat
  | [] => 0
  | v :: vs => max (depth v) (itemDepth vs)

def fieldDepth : List (String × Json) → Nat
  | [] => 0
  | (_, v) :: fs => max (depth v) (fieldDepth fs)

end

theorem itemParts_eq_flatMap (items : List Json) : itemParts items = items.flatMap parts := by
  induction items with
  | nil => rfl
  | cons v vs ih => rw [itemParts, ih, List.flatMap_cons]

theorem fieldParts_eq_flatMap (fields : Entries Json) :
    fieldParts fields = fields.flatMap fun f => parts f.2 := by
  induction fields with
  | nil => rfl
  | cons f fs ih => rw [fieldParts, ih, List.flatMap_cons]

theorem itemDepth_le_iff {items : List Json} {d : Nat} :
    itemDepth items ≤ d ↔ ∀ v ∈ items, v.depth ≤ d := by
  induction items with
  | nil => simp [itemDepth]
  | cons v vs ih => rw [itemDepth, Nat.max_le, ih, List.forall_mem_cons]

theorem fieldDepth_le_iff {fields : Entries Json} {d : Nat} :
    fieldDepth fields ≤ d ↔ ∀ f ∈ fields, f.2.depth ≤ d := by
  induction fields with
  | nil => simp [fieldDepth]
  | cons f fs ih => rw [fieldDepth, Nat.max_le, ih, List.forall_mem_cons]

/-- A number is whole, and one of those that are kept exact. -/
def isWhole : Json → Bool
  | .number (.int n) => Reader.isExact n
  | .number (.real _) => false
  | _ => true

/-- An object has no two fields of one name. -/
def hasDistinctKeys : Json → Bool
  | .object fields => decide (Entries.keys fields).Nodup
  | _ => true

/-- All numbers in the value are whole, and are kept exact. -/
def WholeNumbers (v : Json) : Prop := ∀ u ∈ v.parts, u.isWhole

/-- No object in the value has two fields of one name. -/
def DistinctKeys (v : Json) : Prop := ∀ u ∈ v.parts, u.hasDistinctKeys

instance (v : Json) : Decidable v.WholeNumbers :=
  inferInstanceAs (Decidable (∀ u ∈ v.parts, u.isWhole))

instance (v : Json) : Decidable v.DistinctKeys :=
  inferInstanceAs (Decidable (∀ u ∈ v.parts, u.hasDistinctKeys))

/-- What holds of every value that is read: its fields can be told by their names, and it nests no
deeper than its reader goes. -/
structure WellFormed (d : Nat) (v : Json) : Prop where
  keys : v.DistinctKeys
  depth : v.depth ≤ d

variable {d : Nat} {items : List Json} {fields : Entries Json}

theorem forall_parts_array {p : Json → Bool} :
    (∀ u ∈ (array items).parts, p u) ↔ p (array items) ∧ ∀ v ∈ items, ∀ u ∈ v.parts, p u := by
  rw [parts, itemParts_eq_flatMap, List.forall_mem_cons, List.forall_mem_flatMap]

theorem forall_parts_object {p : Json → Bool} :
    (∀ u ∈ (object fields).parts, p u) ↔
      p (object fields) ∧ ∀ f ∈ fields, ∀ u ∈ f.2.parts, p u := by
  rw [parts, fieldParts_eq_flatMap, List.forall_mem_cons, List.forall_mem_flatMap]

theorem wholeNumbers_array_iff :
    (array items).WholeNumbers ↔ ∀ v ∈ items, v.WholeNumbers := by
  rw [WholeNumbers, forall_parts_array]
  exact and_iff_right rfl

theorem wholeNumbers_object_iff :
    (object fields).WholeNumbers ↔ ∀ f ∈ fields, f.2.WholeNumbers := by
  rw [WholeNumbers, forall_parts_object]
  exact and_iff_right rfl

theorem wholeNumbers_string (s : String) : (string s).WholeNumbers :=
  List.forall_mem_singleton.mpr rfl

theorem wellFormed_array_iff :
    WellFormed (d + 1) (array items) ↔ ∀ v ∈ items, WellFormed d v := by
  constructor
  · intro h v hv
    have hkeys := (forall_parts_array.mp h.keys).2
    have hdepth := itemDepth_le_iff.mp (Nat.le_of_succ_le_succ h.depth)
    exact ⟨hkeys v hv, hdepth v hv⟩
  · intro h
    have hkeys := forall_parts_array.mpr ⟨rfl, fun v hv => (h v hv).keys⟩
    have hdepth : itemDepth items ≤ d := itemDepth_le_iff.mpr fun v hv => (h v hv).depth
    exact ⟨hkeys, Nat.succ_le_succ hdepth⟩

theorem wellFormed_object_iff :
    WellFormed (d + 1) (object fields) ↔ fields.keys.Nodup ∧ ∀ f ∈ fields, WellFormed d f.2 := by
  have hown : (object fields).hasDistinctKeys ↔ fields.keys.Nodup := decide_eq_true_iff
  constructor
  · intro h
    obtain ⟨hnodup, hkeys⟩ := forall_parts_object.mp h.keys
    have hdepth := fieldDepth_le_iff.mp (Nat.le_of_succ_le_succ h.depth)
    exact ⟨hown.mp hnodup, fun f hf => ⟨hkeys f hf, hdepth f hf⟩⟩
  · rintro ⟨hnodup, h⟩
    have hkeys := forall_parts_object.mpr ⟨hown.mpr hnodup, fun f hf => (h f hf).keys⟩
    have hdepth : fieldDepth fields ≤ d := fieldDepth_le_iff.mpr fun f hf => (h f hf).depth
    exact ⟨hkeys, Nat.succ_le_succ hdepth⟩

theorem wellFormed_of_parts {v : Json} (h : v.parts = [v]) (hdepth : v.depth = 0)
    (hkeys : v.hasDistinctKeys) (d : Nat) : WellFormed d v := by
  constructor
  · rw [DistinctKeys, h, List.forall_mem_singleton]
    exact hkeys
  · rw [hdepth]
    exact Nat.zero_le d

theorem wellFormed_string (d : Nat) (s : String) : WellFormed d (.string s) :=
  wellFormed_of_parts rfl rfl rfl d

theorem not_wellFormed_zero_array : ¬ WellFormed 0 (array items) :=
  fun h => Nat.not_succ_le_zero _ h.depth

theorem not_wellFormed_zero_object : ¬ WellFormed 0 (object fields) :=
  fun h => Nat.not_succ_le_zero _ h.depth

variable {key : String} {v field : Json}

theorem wholeNumbers_of_get? (h : v.WholeNumbers) (hget : v.get? key = some field) :
    field.WholeNumbers := by
  cases v with
  | object fields => exact wholeNumbers_object_iff.mp h _ (Entries.mem_of_lookup hget)
  | _ => cases hget

theorem wellFormed_of_get? (h : WellFormed (d + 1) v) (hget : v.get? key = some field) :
    WellFormed d field := by
  cases v with
  | object fields => exact (wellFormed_object_iff.mp h).2 _ (Entries.mem_of_lookup hget)
  | _ => cases hget

end RestClient.Json
