import Mathlib.Order.Bounds.Basic
import RestClient.Proofs.Path.Grammar

namespace RestClient.Path

/-- A legal piece has its only opening brace at its start, if it is a placeholder. -/
theorem Piece.eq_slot_of_text {p : Piece} (h : p.Legal) {before rest : List Char}
    (htext : p.text = before ++ '\x7b' :: rest) : before = [] ∧ ∃ name, p = .slot name := by
  cases p with
  | char c =>
    have hmem : '\x7b' ∈ (Piece.char c).text := by simp [htext]
    exact absurd (List.mem_singleton.mp hmem).symm h
  | slot name =>
    refine ⟨?_, name, rfl⟩
    obtain ⟨-, hopen, -⟩ := h
    cases before with
    | nil => rfl
    | cons c before =>
      rw [Piece.text_slot, List.cons_append, List.cons.injEq] at htext
      have hmem : '\x7b' ∈ name.toList ++ ['\x7d'] := by simp [htext.2]
      simp [hopen] at hmem

namespace Template

variable {text : String} {e : Malformed}

theorem StartsWithSlot.append {cs : List Char} (h : StartsWithSlot cs) (tail : List Char) :
    StartsWithSlot (cs ++ tail) := by
  obtain ⟨name, rest, hname, rfl⟩ := h
  exact ⟨name, rest ++ tail, hname, List.append_assoc _ _ _⟩

/-- An opening brace among legal pieces opens one of their placeholders. -/
theorem startsWithSlot_of_brace {ps : List Piece} (h : ∀ p ∈ ps, p.Legal) {before rest : List Char}
    (htext : ps.flatMap Piece.text = before ++ '\x7b' :: rest) :
    StartsWithSlot ('\x7b' :: rest) := by
  induction ps generalizing before with
  | nil => simp at htext
  | cons p ps ih =>
    obtain ⟨hp, hps⟩ := List.forall_mem_cons.mp h
    rw [List.flatMap_cons] at htext
    rcases List.append_eq_append_iff.mp htext with ⟨before', -, hrest⟩ | ⟨after, hafter, hrest⟩
    · exact ih hps hrest
    · cases after with
      | nil =>
        have hfirst : ps.flatMap Piece.text = [] ++ '\x7b' :: rest := hrest.symm
        exact ih hps hfirst
      | cons c after =>
        obtain ⟨rfl, -⟩ := List.cons.inj hrest
        obtain ⟨rfl, name, rfl⟩ := Piece.eq_slot_of_text hp hafter
        exact ⟨name, ps.flatMap Piece.text, hp, htext.symm⟩

/-- A brace that opens no placeholder stands `position` bytes into the text. A name holds no brace,
so that all other braces open placeholders that are closed. -/
def StrayBraceAt (text : String) (position : Nat) : Prop :=
  ∃ before rest : String, text = before ++ "\x7b" ++ rest ∧ before.utf8ByteSize = position ∧
    ¬ StartsWithSlot ("\x7b" ++ rest).toList

theorem byte_at_brace (before rest : String) :
    (before ++ "\x7b" ++ rest).toByteArray.data[before.utf8ByteSize]? = some 0x7B := by
  have hsize : before.toByteArray.data.size = before.utf8ByteSize := rfl
  have hbrace : "\x7b".toByteArray.data = #[0x7B] := by decide
  rw [String.toByteArray_append, String.toByteArray_append, ByteArray.data_append,
    ByteArray.data_append, Array.append_assoc, Array.getElem?_append_right (Nat.le_of_eq hsize),
    hsize, Nat.sub_self, hbrace]
  exact Array.getElem?_append_left (by decide)

/-- A refused text is a template up to a brace that opens no placeholder. -/
theorem exists_split_of_parse_eq_error (h : parse text = .error e) :
    ∃ before rest : String, text = before ++ "\x7b" ++ rest ∧ before.utf8ByteSize = e.position ∧
      (∃ t, parse before = .ok t) ∧ ¬ StartsWithSlot ("\x7b" ++ rest).toList := by
  obtain ⟨ps, rest, hps, hrest, htext, rfl⟩ := parse_eq_error_iff.mp h
  refine ⟨String.ofList (ps.flatMap Piece.text), String.ofList rest, ?_, ?_, ?_, ?_⟩
  · rw [← String.toList_inj, htext]
    simp
  · rw [← Text.Utf8.length_encode_toList, String.toList_ofList]
  · exact ⟨⟨gather [] ps⟩, parse_eq_ok_iff.mpr ⟨ps, hps, String.toList_ofList.symm, rfl⟩⟩
  · simpa using hrest

/-- No brace before the place of the error is stray: it is one of the pieces that are read there. -/
theorem position_le_of_strayBraceAt (h : parse text = .error e) {position : Nat}
    (hstray : StrayBraceAt text position) : e.position ≤ position := by
  obtain ⟨ps, rest, hps, -, htext, rfl⟩ := parse_eq_error_iff.mp h
  obtain ⟨before, rest', rfl, rfl, hrest'⟩ := hstray
  have hsplit : before.toList ++ '\x7b' :: rest'.toList =
      ps.flatMap Piece.text ++ '\x7b' :: rest := by
    rw [← htext]
    simp
  rcases List.append_eq_append_iff.mp hsplit with ⟨after, hafter, hbrace⟩ | ⟨after, hafter, -⟩
  · cases after with
    | nil => rw [hafter, List.append_nil, Text.Utf8.length_encode_toList]
    | cons c after =>
      obtain ⟨rfl, -⟩ := List.cons.inj hbrace
      refine absurd ((startsWithSlot_of_brace hps hafter).append ('\x7b' :: rest)) ?_
      rw [← hbrace]
      simpa using hrest'
  · rw [← Text.Utf8.length_encode_toList, hafter, Text.Utf8.encode_append, List.length_append]
    exact Nat.le_add_right _ _

theorem isLeast_of_parse_eq_error (h : parse text = .error e) :
    IsLeast {p | StrayBraceAt text p} e.position := by
  obtain ⟨before, rest, htext, hposition, -, hrest⟩ := exists_split_of_parse_eq_error h
  exact ⟨⟨before, rest, htext, hposition, hrest⟩, fun _ => position_le_of_strayBraceAt h⟩

theorem exists_parse_eq_error {position : Nat} (h : StrayBraceAt text position) :
    ∃ e, parse text = .error e := by
  cases hparse : parse text with
  | error e => exact ⟨e, rfl⟩
  | ok t =>
    obtain ⟨ps, hps, htext, -⟩ := parse_eq_ok_iff.mp hparse
    obtain ⟨before, rest, rfl, -, hrest⟩ := h
    have hbrace : ps.flatMap Piece.text = before.toList ++ '\x7b' :: rest.toList := by
      rw [htext]
      simp
    refine absurd (startsWithSlot_of_brace hps hbrace) ?_
    simpa using hrest

theorem template_of_parse_eq_error (h : parse text = .error e) : e.template = text := by
  obtain ⟨-, -, -, -, -, rfl⟩ := parse_eq_error_iff.mp h
  rfl

/-- A text is refused at the first of its braces that opens no placeholder, and only for such a
brace. The error counts the bytes before it, which are those of a template. -/
theorem parse_error_least (text : String) (e : Malformed) :
    (parse text = .error e ↔
      e.template = text ∧ IsLeast {p | StrayBraceAt text p} e.position) ∧
    (parse text = .error e →
      text.toByteArray.data[e.position]? = some 0x7B ∧
      ∃ before rest : String, text = before ++ "\x7b" ++ rest ∧
        before.utf8ByteSize = e.position ∧ (∃ t, parse before = .ok t) ∧
        ¬ StartsWithSlot ("\x7b" ++ rest).toList) := by
  constructor
  · constructor
    · exact fun h => ⟨template_of_parse_eq_error h, isLeast_of_parse_eq_error h⟩
    · rintro ⟨rfl, hleast⟩
      obtain ⟨e', he'⟩ := exists_parse_eq_error hleast.1
      have htemplate : e'.template = e.template := template_of_parse_eq_error he'
      have hposition : e'.position = e.position := (isLeast_of_parse_eq_error he').unique hleast
      obtain ⟨template, position⟩ := e
      obtain rfl : e' = ⟨template, position⟩ := by
        cases e'
        cases htemplate
        cases hposition
        rfl
      exact he'
  · intro h
    obtain ⟨before, rest, htext, hposition, hsplit⟩ := exists_split_of_parse_eq_error h
    refine ⟨?_, before, rest, htext, hposition, hsplit⟩
    rw [htext, ← hposition]
    exact byte_at_brace before rest

/-- A brace inside a name makes the one before it stray, also after a placeholder and characters of
more than one byte. -/
theorem nested_brace_least :
    let lead := "/ключ/" ++ slot "id" ++ "\x7d/"
    let text := lead ++ "\x7ba" ++ slot "b"
    parse text = .error ⟨text, 16⟩ ∧ text.toByteArray.data[16]? = some 0x7B ∧
      IsLeast {p | StrayBraceAt text p} 16 := by
  intro lead text
  have hrefused : parse text = .error ⟨text, 16⟩ := by decide +kernel
  obtain ⟨hfirst, hplace⟩ := parse_error_least text ⟨text, 16⟩
  exact ⟨hrefused, (hplace hrefused).1, (hfirst.mp hrefused).2⟩

end Template
end RestClient.Path
