import Mathlib.Data.List.Nodup
import RestClient.Entries

namespace RestClient.Entries

variable {α : Type}

theorem lookup_cons (k name : String) (v : α) (rest : Entries α) :
    List.lookup name ((k, v) :: rest) = if name = k then some v else List.lookup name rest := by
  by_cases h : name = k
  · simp [h]
  · have hb : (name == k) = false := by simpa using h
    simp only [List.lookup_cons, hb, if_neg h]

theorem lookup_map_of_mem {names : List String} {f : String → α} {name : String}
    (h : name ∈ names) : (names.map fun n => (n, f n)).lookup name = some (f name) := by
  induction names with
  | nil => cases h
  | cons n names ih =>
    by_cases hn : name = n
    · simp [hn]
    · have hmem : name ∈ names := (List.mem_cons.mp h).resolve_left hn
      rw [List.map_cons, lookup_cons, if_neg hn]
      exact ih hmem

theorem mem_of_lookup {m : Entries α} {key : String} {value : α} (h : m.lookup key = some value) :
    (key, value) ∈ m := by
  obtain ⟨before, after, rfl, -⟩ := List.lookup_eq_some_iff.mp h
  exact List.mem_append_right before List.mem_cons_self

theorem mem_iff_lookup {m : Entries α} (hm : m.keys.Nodup) {key : String} {value : α} :
    (key, value) ∈ m ↔ m.lookup key = some value := by
  induction m with
  | nil => simp
  | cons e rest ih =>
    obtain ⟨k, v⟩ := e
    obtain ⟨hk, hrest⟩ := List.nodup_cons.mp hm
    by_cases h : key = k
    · subst h
      have hnot : (key, value) ∉ rest := fun hmem => hk (List.mem_map.mpr ⟨_, hmem, rfl⟩)
      simp [hnot, eq_comm]
    · rw [lookup_cons, if_neg h, ← ih hrest]
      simp [h]

theorem mem_keys_iff {m : Entries α} {key : String} : key ∈ m.keys ↔ ∃ value, (key, value) ∈ m := by
  simp [keys]

theorem keys_filterMap {names : List String} {f : String → Option α} :
    keys (names.filterMap fun name => (f name).map (name, ·)) =
      names.filter fun name => (f name).isSome := by
  induction names with
  | nil => rfl
  | cons n names ih =>
    cases hf : f n with
    | none => simpa [List.filterMap_cons, hf] using ih
    | some x => simpa [List.filterMap_cons, hf] using ih

theorem lookup_insert (m : Entries α) (key name : String) (value : α) :
    (insert m key value).lookup name = if name = key then some value else m.lookup name := by
  induction m with
  | nil => exact lookup_cons key name value []
  | cons e rest ih =>
    obtain ⟨k, v⟩ := e
    rw [insert, lookup_cons]
    by_cases hk : k = key
    · rw [if_pos hk, lookup_cons, hk]
      split <;> rfl
    · rw [if_neg hk, lookup_cons, ih]
      by_cases hname : name = k
      · simp [hname, hk]
      · simp [hname]

theorem insert_of_not_mem {m : Entries α} {key : String} (h : key ∉ m.keys) (value : α) :
    insert m key value = m ++ [(key, value)] := by
  induction m with
  | nil => rfl
  | cons e rest ih =>
    rw [keys_cons, List.mem_cons, not_or] at h
    rw [insert, if_neg (Ne.symm h.1), ih h.2, List.cons_append]

/-- Pairs of different names are entries as they stand. -/
theorem ofPairs_of_nodup {pairs : List (String × α)} (h : (keys pairs).Nodup) :
    ofPairs pairs = pairs := by
  suffices hfold : ∀ m : Entries α, (keys (m ++ pairs)).Nodup →
      pairs.foldl (fun m e => insert m e.1 e.2) m = m ++ pairs from hfold [] h
  clear h
  induction pairs with
  | nil => exact fun m _ => (List.append_nil m).symm
  | cons e rest ih =>
    obtain ⟨k, v⟩ := e
    intro m hm
    have hmoved : m ++ (k, v) :: rest = (m ++ [(k, v)]) ++ rest := by simp
    have hnew : k ∉ m.keys := by
      rw [keys, List.map_append] at hm
      exact fun hmem => List.disjoint_of_nodup_append hm hmem List.mem_cons_self
    rw [List.foldl_cons]
    dsimp only
    rw [insert_of_not_mem hnew, hmoved]
    exact ih _ (hmoved ▸ hm)

theorem mem_of_mem_insert {m : Entries α} {key : String} {value : α} {e : String × α}
    (h : e ∈ insert m key value) : e ∈ m ∨ e = (key, value) := by
  induction m with
  | nil => exact .inr (List.mem_singleton.mp h)
  | cons f rest ih =>
    obtain ⟨k, v⟩ := f
    rw [insert] at h
    split at h
    case isTrue hk =>
      rcases List.mem_cons.mp h with rfl | h
      · exact .inr (by rw [hk])
      · exact .inl (List.mem_cons_of_mem _ h)
    case isFalse =>
      rcases List.mem_cons.mp h with rfl | h
      · exact .inl List.mem_cons_self
      · exact (ih h).imp_left (List.mem_cons_of_mem _)

theorem mem_of_mem_ofPairs {pairs : List (String × α)} {e : String × α} (h : e ∈ ofPairs pairs) :
    e ∈ pairs := by
  suffices hfold : ∀ m : Entries α, e ∈ pairs.foldl (fun m e => insert m e.1 e.2) m →
      e ∈ m ∨ e ∈ pairs from (hfold [] h).resolve_left (by simp)
  clear h
  induction pairs with
  | nil => exact fun m hm => .inl hm
  | cons f rest ih =>
    intro m hm
    rcases ih _ hm with hm | hm
    · exact (mem_of_mem_insert hm).imp_right fun h => List.mem_cons.mpr (.inl h)
    · exact .inr (List.mem_cons_of_mem f hm)

end RestClient.Entries
