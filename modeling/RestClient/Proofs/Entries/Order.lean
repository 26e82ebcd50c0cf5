import Mathlib.Data.Finset.Card
import Mathlib.Data.Finset.Dedup
import Mathlib.Data.List.Induction
import Mathlib.Data.List.TakeDrop
import Mathlib.Data.List.TakeWhile
import RestClient.Proofs.Entries.Lookup

namespace RestClient

theorem eraseDups_append_singleton {α : Type} [BEq α] [LawfulBEq α] (l : List α) (a : α) :
    (l ++ [a]).eraseDups = if l.contains a then l.eraseDups else l.eraseDups ++ [a] := by
  rw [List.eraseDups_append, List.removeAll, List.filter_singleton]
  cases h : l.elem a <;> simp_all [List.eraseDups_cons]

theorem nodup_eraseDups {α : Type} [BEq α] [LawfulBEq α] (l : List α) : l.eraseDups.Nodup := by
  induction l using List.reverseRecOn with
  | nil => exact List.nodup_nil
  | append_singleton l a ih =>
    rw [eraseDups_append_singleton]
    split
    case isTrue => exact ih
    case isFalse h =>
      refine List.nodup_append.mpr ⟨ih, List.nodup_singleton a, fun b hb c hc => ?_⟩
      rw [List.mem_singleton.mp hc]
      rintro rfl
      exact h (by simpa using hb)

theorem eraseDups_of_nodup {α : Type} [BEq α] [LawfulBEq α] {l : List α} (h : l.Nodup) :
    l.eraseDups = l := by
  induction l using List.reverseRecOn with
  | nil => rfl
  | append_singleton l a ih =>
    obtain ⟨hl, -, hnot⟩ := List.nodup_append.mp h
    have ha : ¬ l.contains a := by
      rw [List.contains_iff_mem]
      exact fun hmem => hnot a hmem a (List.mem_singleton_self a) rfl
    rw [eraseDups_append_singleton, if_neg ha, ih hl]

namespace Entries

variable {α : Type} {m pairs : Entries α}

/-- The value that stands last under a name. -/
def last? (pairs : Entries α) (name : String) : Option α := pairs.reverse.lookup name

theorem last?_append_singleton (pairs : Entries α) (k name : String) (v : α) :
    last? (pairs ++ [(k, v)]) name = if name = k then some v else last? pairs name := by
  rw [last?, List.reverse_append, List.reverse_singleton, List.singleton_append, lookup_cons]
  rfl

theorem last?_of_nodup (h : m.keys.Nodup) (name : String) : last? m name = m.lookup name := by
  have hreverse : (keys m.reverse).Nodup := by
    rw [keys, List.map_reverse]
    exact List.nodup_reverse.mpr h
  refine Option.ext fun v => ?_
  rw [last?, ← mem_iff_lookup hreverse, ← mem_iff_lookup h, List.mem_reverse]

theorem last?_eq_some_iff {name : String} {v : α} :
    last? pairs name = some v ↔
      ∃ before after, pairs = before ++ (name, v) :: after ∧ name ∉ keys after := by
  rw [last?, List.lookup_eq_some_iff]
  constructor
  · rintro ⟨after, before, hsplit, hafter⟩
    refine ⟨before.reverse, after.reverse, ?_, ?_⟩
    · rw [List.reverse_eq_iff] at hsplit
      simpa using hsplit
    · intro hmem
      obtain ⟨u, hu⟩ := mem_keys_iff.mp hmem
      exact absurd (hafter (name, u) (List.mem_reverse.mp hu)) (by simp)
  · rintro ⟨before, after, rfl, hafter⟩
    refine ⟨after.reverse, before.reverse, by simp, fun e he => ?_⟩
    rw [bne_iff_ne]
    rintro rfl
    exact hafter (List.mem_map_of_mem (List.mem_reverse.mp he))

theorem keys_append (m m' : Entries α) : keys (m ++ m') = m.keys ++ m'.keys := List.map_append

theorem keys_insert (m : Entries α) (key : String) (value : α) :
    (insert m key value).keys = if key ∈ m.keys then m.keys else m.keys ++ [key] := by
  induction m with
  | nil => rfl
  | cons e rest ih =>
    obtain ⟨k, v⟩ := e
    rw [insert]
    by_cases hk : k = key
    · rw [if_pos hk, if_pos (by simp [hk])]
      rfl
    · rw [if_neg hk, keys_cons, ih]
      by_cases hmem : key ∈ keys rest
      · simp [hmem]
      · simp [hmem, Ne.symm hk]

/-- Each name of the pairs stands where it comes first and has the value that comes last. -/
structure Collects (m pairs : Entries α) : Prop where
  keys : m.keys = pairs.keys.eraseDups
  lookup : ∀ name, m.lookup name = last? pairs name

namespace Collects

theorem of_nodup (h : m.keys.Nodup) : Collects m m where
  keys := (eraseDups_of_nodup h).symm
  lookup name := (last?_of_nodup h name).symm

theorem insert (h : Collects m pairs) (key : String) (value : α) :
    Collects (insert m key value) (pairs ++ [(key, value)]) where
  keys := by
    have hmem : key ∈ m.keys ↔ pairs.keys.contains key := by
      rw [h.keys, List.mem_eraseDups, List.contains_iff_mem]
    rw [keys_insert, keys_append, keys_cons, keys_nil, eraseDups_append_singleton, ← h.keys]
    exact ite_congr (propext hmem) (fun _ => rfl) (fun _ => rfl)
  lookup name := by rw [lookup_insert, last?_append_singleton, h.lookup]

theorem foldl (h : Collects m pairs) (steps : Entries α) :
    Collects (steps.foldl (fun m e => Entries.insert m e.1 e.2) m) (pairs ++ steps) := by
  induction steps generalizing m pairs with
  | nil => rwa [List.append_nil]
  | cons e steps ih =>
    obtain ⟨k, v⟩ := e
    have hrest := ih (h.insert k v)
    rwa [List.append_assoc, List.singleton_append] at hrest

theorem nodup (h : Collects m pairs) : m.keys.Nodup := by
  rw [h.keys]
  exact nodup_eraseDups pairs.keys

theorem mem_iff (h : Collects m pairs) {name : String} {v : α} :
    (name, v) ∈ m ↔
      ∃ before after, pairs = before ++ (name, v) :: after ∧ name ∉ Entries.keys after := by
  rw [mem_iff_lookup h.nodup, h.lookup]
  exact last?_eq_some_iff

theorem length (h : Collects m pairs) : m.length = pairs.keys.toFinset.card := by
  have hset : m.keys.toFinset = pairs.keys.toFinset := by
    ext name
    rw [List.mem_toFinset, List.mem_toFinset, h.keys, List.mem_eraseDups]
  rw [← hset, List.toFinset_card_of_nodup h.nodup, Entries.keys, List.length_map]

end Collects

theorem collects_ofPairs (pairs : Entries α) : Collects (ofPairs pairs) pairs :=
  (Collects.of_nodup List.nodup_nil : Collects ([] : Entries α) []).foldl pairs

theorem forall_ne_of_not_mem {key : String} (h : key ∉ m.keys) :
    ∀ e ∈ m, decide (e.1 ≠ key) = true := by
  intro e he
  rw [decide_eq_true_iff]
  rintro rfl
  exact h (List.mem_map_of_mem he)

theorem filter_ne_of_not_mem {key : String} (h : key ∉ m.keys) : m.filter (·.1 ≠ key) = m :=
  List.filter_eq_self.mpr (forall_ne_of_not_mem h)

theorem insert_perm (h : m.keys.Nodup) (key : String) (value : α) :
    (insert m key value).Perm ((key, value) :: m.filter (·.1 ≠ key)) := by
  induction m with
  | nil => exact List.Perm.refl _
  | cons e rest ih =>
    obtain ⟨k, v⟩ := e
    obtain ⟨hk, hrest⟩ := List.nodup_cons.mp h
    rw [insert]
    by_cases hkey : k = key
    · rw [if_pos hkey, List.filter_cons_of_neg (by simpa using hkey),
        filter_ne_of_not_mem (hkey ▸ hk), hkey]
    · rw [if_neg hkey, List.filter_cons_of_pos (by simpa using hkey)]
      exact ((ih hrest).cons _).trans (List.Perm.swap _ _ _)

theorem span_ne_append {before : Entries α} {key : String} (h : key ∉ before.keys) (value : α)
    (after : Entries α) :
    (before ++ (key, value) :: after).span (·.1 ≠ key) = (before, (key, value) :: after) := by
  have hbefore := forall_ne_of_not_mem h
  rw [List.span_eq_takeWhile_dropWhile, List.takeWhile_append_of_pos hbefore,
    List.dropWhile_append_of_pos hbefore, List.takeWhile_cons_of_neg (by simp),
    List.dropWhile_cons_of_neg (by simp), List.append_nil]

theorem swapRemove_of_not_mem {key : String} (h : key ∉ m.keys) : swapRemove m key = m := by
  have hspan : m.span (·.1 ≠ key) = (m, []) := by
    have hall := forall_ne_of_not_mem h
    rw [List.span_eq_takeWhile_dropWhile, List.takeWhile_eq_self_iff.mpr hall,
      List.dropWhile_eq_nil_iff.mpr hall]
  rw [swapRemove, hspan]

/-- An entry that stands last leaves all others where they are. -/
theorem swapRemove_append_singleton {key : String} (h : key ∉ m.keys) (value : α) :
    swapRemove (m ++ [(key, value)]) key = m := by
  rw [swapRemove, span_ne_append h]
  exact List.append_nil m

theorem swapRemove_append_cons_perm {before : Entries α} {key : String} (h : key ∉ before.keys)
    (value : α) (after : Entries α) :
    (swapRemove (before ++ (key, value) :: after) key).Perm (before ++ after) := by
  rcases List.eq_nil_or_concat after with rfl | ⟨kept, last, rfl⟩
  · rw [swapRemove_append_singleton h, List.append_nil]
  · rw [swapRemove, span_ne_append h]
    simp only [List.concat_eq_append, List.getLast?_concat, List.dropLast_concat]
    exact List.Perm.append_left before (List.perm_append_singleton last kept).symm

theorem swapRemove_perm (h : m.keys.Nodup) (key : String) :
    (swapRemove m key).Perm (m.filter (·.1 ≠ key)) := by
  by_cases hmem : key ∈ m.keys
  · obtain ⟨value, hvalue⟩ := mem_keys_iff.mp hmem
    obtain ⟨before, after, rfl⟩ := List.append_of_mem hvalue
    rw [keys_append, keys_cons] at h
    obtain ⟨-, hafter, hapart⟩ := List.nodup_append.mp h
    have hbefore : key ∉ keys before := fun hkey => hapart key hkey key List.mem_cons_self rfl
    rw [List.filter_append, List.filter_cons_of_neg (by simp), filter_ne_of_not_mem hbefore,
      filter_ne_of_not_mem (List.nodup_cons.mp hafter).1]
    exact swapRemove_append_cons_perm hbefore value after
  · rw [swapRemove_of_not_mem hmem, filter_ne_of_not_mem hmem]

end Entries
end RestClient
