import RestClient.Http.Request
import RestClient.Proofs.Entries.Order
import RestClient.Proofs.Except
import RestClient.Resource.Arguments

namespace RestClient.Arguments

variable {a b : Arguments}

theorem eq_of_entries (h : a.entries = b.entries) : a = b := by
  cases a
  cases b
  cases h
  rfl

/-- The arguments after some more are inserted in order. -/
def insertAll (a : Arguments) (steps : Entries Json) : Arguments :=
  steps.foldl (fun a e => a.insert e.1 e.2) a

theorem entries_insertAll (a : Arguments) (steps : Entries Json) :
    (a.insertAll steps).entries = steps.foldl (fun m e => Entries.insert m e.1 e.2) a.entries := by
  induction steps generalizing a with
  | nil => rfl
  | cons e steps ih => exact ih (a.insert e.1 e.2)

theorem collects_insertAll (a : Arguments) (steps : Entries Json) :
    Entries.Collects (a.insertAll steps).entries (a.entries ++ steps) := by
  rw [entries_insertAll]
  exact (Entries.Collects.of_nodup a.nodup_keys).foldl steps

theorem contains_iff {name : String} :
    a.contains name ↔ ∃ v, a.get? name = some v ∧ v ≠ .null := by
  rw [contains, Option.isSome_iff_exists]
  exact exists_congr fun v => value?_eq_some_iff

theorem ofPairs_eq_insertAll (pairs : Entries Json) : ofPairs pairs = empty.insertAll pairs := by
  apply eq_of_entries
  rw [entries_insertAll]
  rfl

/-- An object is copied as it stands, since its fields have names of their own. -/
theorem ofJson_object {fields : Entries Json} (h : fields.keys.Nodup) :
    ofJson (.object fields) = .ok ⟨fields, h⟩ := by
  rw [ofJson]
  exact congrArg Except.ok (eq_of_entries (Entries.ofPairs_of_nodup h))

theorem ofJson_object_ofPairs (pairs : Entries Json) :
    ofJson (.object (Entries.ofPairs pairs)) = .ok (ofPairs pairs) :=
  ofJson_object (Entries.nodup_keys_ofPairs pairs)

theorem ofKeyed_strings (pairs : Entries Json) :
    ofKeyed (pairs.map fun e => (.string e.1, e.2)) = .ok (ofPairs pairs) := by
  rw [ofKeyed, Except.bind_eq_ok_iff]
  refine ⟨pairs, ?_, rfl⟩
  rw [List.mapM_map]
  exact (Except.mapM_eq_ok_map (g := id) fun _ _ => rfl).trans
    (congrArg Except.ok (List.map_id pairs))

/-- Each name of arguments stands where it was first inserted and has the value that was inserted
last. All ways to make arguments of the same pairs make the same of them, also of repeated names. -/
theorem places_and_values :
    (∀ (start : Arguments) (steps : Entries Json),
      let a := start.insertAll steps
      let pairs := start.entries ++ steps
      a.entries.keys.Nodup ∧ a.entries.keys = pairs.keys.eraseDups ∧
      (∀ name v, (name, v) ∈ a.entries ↔
        ∃ before after, pairs = before ++ (name, v) :: after ∧ name ∉ Entries.keys after) ∧
      (∀ name v, a.get? name = some v ↔ (name, v) ∈ a.entries) ∧
      (∀ name v, a.value? name = some v ↔ a.get? name = some v ∧ v ≠ .null) ∧
      (∀ name, a.contains name ↔ ∃ v, a.get? name = some v ∧ v ≠ .null) ∧
      a.size = pairs.keys.toFinset.card) ∧
    (∀ pairs : Entries Json,
      let a := empty.insertAll pairs
      ofPairs pairs = a ∧
      ofJson (.object (Entries.ofPairs pairs)) = .ok a ∧
      ofKeyed (pairs.map fun e => (.string e.1, e.2)) = .ok a) ∧
    (∀ fields : Entries Json, fields.keys.Nodup →
      ∃ a, ofJson (.object fields) = .ok a ∧ a.entries = fields) ∧
    ∀ (q : Request) fields, q.body = some fields → ofJson q.jsonBody = .ok (ofPairs fields) := by
  refine ⟨?_, ?_, ?_, ?_⟩
  · intro start steps a pairs
    have hcollects : Entries.Collects a.entries pairs := collects_insertAll start steps
    have hmem (name : String) (v : Json) :
        (name, v) ∈ a.entries ↔ a.get? name = some v := Entries.mem_iff_lookup a.nodup_keys
    refine ⟨hcollects.nodup, hcollects.keys, ?_, fun name v => (hmem name v).symm,
      fun name v => value?_eq_some_iff, fun name => contains_iff, hcollects.length⟩
    intro name v
    rw [hmem, get?, hcollects.lookup]
    exact Entries.last?_eq_some_iff
  · intro pairs a
    have hall : ofPairs pairs = a := ofPairs_eq_insertAll pairs
    exact ⟨hall, hall ▸ ofJson_object_ofPairs pairs, hall ▸ ofKeyed_strings pairs⟩
  · intro fields h
    exact ⟨_, ofJson_object h, rfl⟩
  · intro q fields hbody
    rw [Request.jsonBody, hbody]
    exact ofJson_object_ofPairs fields

theorem repeated_places_and_values :
    let start := ofPairs [("b", .int 1), ("a", .null)]
    let steps : Entries Json :=
      [("c", .int 2), ("b", .null), ("a", .array []), ("c", .null), ("c", .bool true)]
    let a := start.insertAll steps
    let q : Request := { method := .post, path := "/", body := some (start.entries ++ steps) }
    a.entries.keys = ["b", "a", "c"] ∧ a.get? "c" = some (.bool true) ∧ a.size = 3 ∧
      (Entries.keys [("b", Json.null), ("", .int 0)]).Nodup ∧
      (∃ a, ofJson (.object [("b", .null), ("", .int 0)]) = .ok a ∧
        a.entries = [("b", .null), ("", .int 0)]) ∧
      q.body = some (start.entries ++ steps) ∧
      ofJson q.jsonBody = .ok (ofPairs (start.entries ++ steps)) := by
  intro start steps a q
  obtain ⟨hinserted, -, hobjects, hbodies⟩ := places_and_values
  obtain ⟨-, hkeys, hentries, hget, -, -, hsize⟩ := hinserted start steps
  have hlast : a.get? "c" = some (.bool true) :=
    (hget _ _).mpr ((hentries _ _).mpr ⟨start.entries ++ steps.take 4, [], rfl, by simp⟩)
  have hnodup : (Entries.keys [("b", Json.null), ("", .int 0)]).Nodup := by decide
  exact ⟨hkeys.trans (by decide), hlast, hsize.trans (by decide), hnodup, hobjects _ hnodup, rfl,
    hbodies q _ rfl⟩

end RestClient.Arguments
