namespace RestClient

abbrev Entries (α : Type) := List (String × α)

namespace Entries

variable {α : Type}

def keys (m : Entries α) : List String := m.map Prod.fst

@[simp] theorem keys_nil : keys ([] : Entries α) = [] := rfl

@[simp] theorem keys_cons (k : String) (v : α) (m : Entries α) :
    keys ((k, v) :: m) = k :: keys m := rfl

/-- A key stands where it was first put and holds what was put last. -/
def insert (m : Entries α) (key : String) (value : α) : Entries α :=
  match m with
  | [] => [(key, value)]
  | (k, v) :: rest => if k = key then (k, value) :: rest else (k, v) :: insert rest key value

theorem mem_keys_insert {m : Entries α} {key k : String} {value : α} :
    k ∈ (insert m key value).keys ↔ k ∈ m.keys ∨ k = key := by
  induction m with
  | nil => simp [insert]
  | cons e rest ih =>
    obtain ⟨k', v⟩ := e
    by_cases h : k' = key
    · subst h
      simp [insert, or_comm]
    · simp [insert, h, ih, or_assoc]

theorem nodup_keys_insert {m : Entries α} (hm : m.keys.Nodup) (key : String) (value : α) :
    (insert m key value).keys.Nodup := by
  induction m with
  | nil => simp [insert]
  | cons e rest ih =>
    obtain ⟨k, v⟩ := e
    obtain ⟨hk, hrest⟩ := List.nodup_cons.mp hm
    by_cases h : k = key
    · subst h
      simpa [insert] using hm
    · have hk' : k ∉ (insert rest key value).keys := by
        rw [mem_keys_insert]
        exact fun hmem => hmem.elim hk h
      simpa [insert, h, hk'] using ih hrest

def ofPairs (pairs : List (String × α)) : Entries α :=
  pairs.foldl (fun m (k, v) => insert m k v) []

theorem nodup_keys_ofPairs (pairs : List (String × α)) : (ofPairs pairs).keys.Nodup := by
  suffices h : ∀ m : Entries α, m.keys.Nodup →
      (pairs.foldl (fun m (k, v) => insert m k v) m).keys.Nodup from h [] List.nodup_nil
  induction pairs with
  | nil => exact fun m hm => hm
  | cons e rest ih => exact fun m hm => ih _ (nodup_keys_insert hm e.1 e.2)

/-- Takes `key` out and moves the last entry into the gap. -/
def swapRemove (m : Entries α) (key : String) : Entries α :=
  match m.span (·.1 ≠ key) with
  | (before, []) => before
  | (before, _ :: after) => before ++ match after.getLast? with
    | some last => last :: after.dropLast
    | none => []

/-- The entries by name, in code point order; entries of one name keep their order. -/
def sorted (m : Entries α) : Entries α := m.mergeSort fun a b => a.1 ≤ b.1

end Entries
end RestClient
