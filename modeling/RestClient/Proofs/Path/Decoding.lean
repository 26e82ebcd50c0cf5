import RestClient.Proofs.Encoding.Percent
import RestClient.Proofs.Path.Grammar
import RestClient.Proofs.Path.Rendering

namespace RestClient.Path

open Encoding (encodeComponent isComponentChar decodeComponent?)

/-- The characters that give a path, a URL or a template its structure. -/
def structuralChars : List Char := ['/', '?', '#', '\x7b', '\x7d']

namespace Piece

def char? : Piece → Option Char
  | .char c => some c
  | .slot _ => none

/-- A piece with a value for every placeholder. -/
def fill (value : String → String) : Piece → List Char
  | .char c => [c]
  | .slot name => (encodeComponent (value name)).toList

/-- An encoded value in the place of the first piece ends where the second one begins. -/
def Ends : Piece → Piece → Prop
  | .char _, _ => True
  | .slot _, .char c => isComponentChar c = false
  | .slot _, .slot _ => False

instance : DecidableRel Ends
  | .char _, _ => inferInstanceAs (Decidable True)
  | .slot _, .char c => inferInstanceAs (Decidable (isComponentChar c = false))
  | .slot _, .slot _ => inferInstanceAs (Decidable False)

end Piece

namespace Template

/-- The characters of the literals, in order. -/
def literalChars (t : Template) : List Char := t.pieces.filterMap Piece.char?

/-- Every placeholder stands at the end or before a character that no encoded value holds. -/
def Delimited (t : Template) : Prop := t.pieces.IsChain Piece.Ends

instance (t : Template) : Decidable t.Delimited :=
  inferInstanceAs (Decidable (t.pieces.IsChain Piece.Ends))

/-- The values with which the pieces are filled in a text. -/
def readValues : List Piece → List Char → Option (Entries String)
  | [], [] => some []
  | [], _ :: _ => none
  | .char _ :: _, [] => none
  | .char c :: ps, c' :: cs => if c = c' then readValues ps cs else none
  | .slot name :: ps, cs => do
    let value ← decodeComponent? (cs.takeWhile isComponentChar)
    let values ← readValues ps (cs.dropWhile isComponentChar)
    return (name, value) :: values

/-- All placeholders have a value. -/
def Binds (t : Template) (value : String → Option String) : Prop :=
  ∀ name ∈ t.placeholders, (value name).isSome

theorem toList_filled (t : Template) (value : String → String) :
    (t.filled value).toList = t.pieces.flatMap (Piece.fill value) := by
  rw [filled, String.toList_join, List.flatMap_map, pieces, List.flatMap_assoc]
  congr 1
  funext s
  cases s with
  | literal text => simp [Segment.filled, Segment.pieces, List.flatMap_map, Piece.fill]
  | placeholder name => simp [Segment.filled, Segment.pieces, Piece.fill]

theorem filter_filled {p : Char → Bool} (h : ∀ c, isComponentChar c → p c = false) (t : Template)
    (value : String → String) : (t.filled value).toList.filter p = t.literalChars.filter p := by
  rw [toList_filled, literalChars, List.filter_flatMap, List.filter_filterMap,
    List.filterMap_eq_flatMap_toList]
  congr 1
  funext piece
  cases piece with
  | char c => by_cases hc : p c <;> simp [Piece.fill, Piece.char?, hc, Option.filter]
  | slot name =>
    have hvalue : (encodeComponent (value name)).toList.filter p = [] := by
      rw [List.filter_eq_nil_iff]
      intro c hc
      simpa using h c (Encoding.isComponentChar_of_mem_encodeComponent hc)
    simpa [Piece.fill, Piece.char?] using hvalue

/-- A character that no encoded value holds comes from a literal. -/
theorem mem_filled_iff {c : Char} (h : isComponentChar c = false) {t : Template}
    {value : String → String} : c ∈ (t.filled value).toList ↔ .char c ∈ t.pieces := by
  rw [toList_filled, List.mem_flatMap]
  constructor
  · rintro ⟨p, hp, hc⟩
    cases p with
    | char d => exact List.mem_singleton.mp hc ▸ hp
    | slot name =>
      have hchar := Encoding.isComponentChar_of_mem_encodeComponent hc
      rw [h] at hchar
      cases hchar
  · intro hp
    exact ⟨.char c, hp, List.mem_singleton_self c⟩

/-- A value is read up to the character that ends it, and decoded. -/
theorem readValues_fill {ps : List Piece} (h : ps.IsChain Piece.Ends) (value : String → String) :
    readValues ps (ps.flatMap (Piece.fill value)) =
      some ((ps.filterMap Piece.slot?).map fun name => (name, value name)) := by
  induction ps with
  | nil => rfl
  | cons p ps ih =>
    obtain ⟨hends, htail⟩ := List.isChain_cons.mp h
    cases p with
    | char c =>
      rw [List.flatMap_cons, Piece.fill, List.singleton_append, readValues, if_pos rfl, ih htail]
      rfl
    | slot name =>
      have hvalue : ∀ c ∈ (encodeComponent (value name)).toList, isComponentChar c :=
        fun c hc => Encoding.isComponentChar_of_mem_encodeComponent hc
      -- What is filled in after the placeholder is empty, or begins with what ends it.
      have hrest : (ps.flatMap (Piece.fill value)).takeWhile isComponentChar = [] ∧
          (ps.flatMap (Piece.fill value)).dropWhile isComponentChar =
            ps.flatMap (Piece.fill value) := by
        cases ps with
        | nil => exact ⟨rfl, rfl⟩
        | cons p ps =>
          cases p with
          | slot name' => exact (hends (.slot name') rfl).elim
          | char c =>
            have hc : isComponentChar c = false := hends (.char c) rfl
            simp [Piece.fill, hc]
      rw [List.flatMap_cons, Piece.fill, readValues, List.takeWhile_append_of_pos hvalue,
        List.dropWhile_append_of_pos hvalue, hrest.1, hrest.2, List.append_nil,
        Encoding.decodeComponent?_encodeComponent, ih htail]
      rfl

variable {t : Template} {value value' : String → Option String}

theorem render_of_binds (h : t.Binds value) :
    t.render value = .ok (t.filled fun name => (value name).getD "") := by
  apply render_eq_ok
  intro name hname
  obtain ⟨text, htext⟩ := Option.isSome_iff_exists.mp (h name hname)
  rw [htext, Option.getD_some]

theorem readValues_filled (h : t.Delimited) (value : String → String) :
    readValues t.pieces (t.filled value).toList =
      some (t.placeholders.map fun name => (name, value name)) := by
  rw [toList_filled, readValues_fill h, placeholders_eq_slots]

theorem filled_congr {value value' : String → String}
    (h : ∀ name ∈ t.placeholders, value name = value' name) : t.filled value = t.filled value' := by
  rw [filled, filled]
  congr 1
  apply List.map_congr_left
  intro s hs
  cases s with
  | literal text => rfl
  | placeholder name =>
    have hname : name ∈ t.placeholders := List.mem_filterMap.mpr ⟨_, hs, rfl⟩
    rw [Segment.filled, Segment.filled, h name hname]

theorem filled_eq_iff (h : t.Delimited) {value value' : String → String} :
    t.filled value = t.filled value' ↔ ∀ name ∈ t.placeholders, value name = value' name := by
  constructor
  · intro heq name hname
    have hvalues := readValues_filled h value
    rw [heq, readValues_filled h] at hvalues
    exact (congrArg Prod.snd (List.map_inj_left.mp (Option.some.inj hvalues) name hname)).symm
  · exact filled_congr

theorem render_eq_iff (h : t.Delimited) (hvalue : t.Binds value) (hvalue' : t.Binds value') :
    t.render value = t.render value' ↔ ∀ name ∈ t.placeholders, value name = value' name := by
  rw [render_of_binds hvalue, render_of_binds hvalue', Except.ok.injEq, filled_eq_iff h]
  refine forall₂_congr fun name hname => ?_
  obtain ⟨text, htext⟩ := Option.isSome_iff_exists.mp (hvalue name hname)
  obtain ⟨text', htext'⟩ := Option.isSome_iff_exists.mp (hvalue' name hname)
  rw [htext, htext', Option.getD_some, Option.getD_some, Option.some.injEq]

/-- Rendering a template that has all its values adds no structure to that of its literals. In a
delimited template the values are read back from the path, which is another one for other values. -/
theorem render_decodable (t : Template) :
    (∀ value, t.Binds value → ∃ path, t.render value = .ok path ∧
      path.toList.filter structuralChars.contains =
        t.literalChars.filter structuralChars.contains ∧
      (t.Delimited → readValues t.pieces path.toList =
        some (t.placeholders.map fun name => (name, (value name).getD "")))) ∧
    (t.Delimited → ∀ value value', t.Binds value → t.Binds value' →
      (t.render value = t.render value' ↔ ∀ name ∈ t.placeholders, value name = value' name)) := by
  constructor
  · intro value hvalue
    refine ⟨_, render_of_binds hvalue, filter_filled ?_ t _, fun h => readValues_filled h _⟩
    exact fun c hc => Encoding.contains_eq_false_of_property (by decide) hc
  · intro h value value' hvalue hvalue'
    exact render_eq_iff h hvalue hvalue'

/-- A value that looks like structure, and an empty one, in a template that repeats a
placeholder. -/
theorem hostile_values_decodable :
    let text := "/u/" ++ slot "x" ++ "/" ++ slot "y" ++ "\x7d?" ++ slot "x"
    let hostile := "../a%2F\x7bé?"
    let value := fun name => some (if name = "x" then hostile else "")
    ∃ t path, parse text = .ok t ∧ t.Delimited ∧ t.render value = .ok path ∧
      readValues t.pieces path.toList = some [("x", hostile), ("y", ""), ("x", hostile)] ∧
      t.render value ≠ t.render fun _ => some hostile := by
  intro text hostile value
  let t : Template := ⟨[.literal "/u/", .placeholder "x", .literal "/", .placeholder "y",
    .literal "\x7d?", .placeholder "x"]⟩
  have ht : parse text = .ok t := by decide +kernel
  have hdelimited : t.Delimited := by decide +kernel
  have hbinds (f : String → String) : t.Binds fun name => some (f name) := fun _ _ => rfl
  obtain ⟨hreads, hdiffer⟩ := render_decodable t
  obtain ⟨path, hpath, -, hvalues⟩ := hreads value (hbinds _)
  refine ⟨t, path, ht, hdelimited, hpath, hvalues hdelimited, ?_⟩
  intro h
  have hy := (hdiffer hdelimited _ _ (hbinds _) (hbinds _)).mp h "y" (by decide +kernel)
  exact absurd hy (by decide +kernel)

end Template
end RestClient.Path
