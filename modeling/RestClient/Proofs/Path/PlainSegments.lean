import RestClient.Proofs.Http.RequestTarget
import RestClient.Proofs.Path.Decoding

namespace RestClient.Path

open Destination (isSlash isPathSafe isDotSegment)
open Encoding (encodeComponent isComponentChar)

/-- Between two slashes: a placeholder alone, or text that a URL leaves as it is. -/
def isPlainSegment : List Piece → Bool
  | [.slot _] => true
  | ps => ps.all (·.char?.any isComponentChar) && !isDotSegment (ps.filterMap Piece.char?)

theorem exists_chars {p : Char → Bool} {ps : List Piece} (h : ∀ x ∈ ps, x.char?.any p) :
    ∃ cs : List Char, ps = cs.map .char ∧ ∀ c ∈ cs, p c := by
  induction ps with
  | nil => exact ⟨[], rfl, by simp⟩
  | cons x ps ih =>
    obtain ⟨hx, hps⟩ := List.forall_mem_cons.mp h
    obtain ⟨cs, rfl, hcs⟩ := ih hps
    cases x with
    | char c => exact ⟨c :: cs, rfl, List.forall_mem_cons.mpr ⟨hx, hcs⟩⟩
    | slot name => cases hx

theorem slot_or_chars_of_isPlainSegment {ps : List Piece} (h : isPlainSegment ps) :
    (∃ name, ps = [.slot name]) ∨
      ∃ cs : List Char, ps = cs.map .char ∧ (∀ c ∈ cs, isComponentChar c) ∧
        isDotSegment cs = false := by
  fun_cases isPlainSegment ps with
  | case1 name => exact .inl ⟨name, rfl⟩
  | case2 =>
    right
    rw [isPlainSegment, Bool.and_eq_true, List.all_eq_true, Bool.not_eq_true'] at h
    · obtain ⟨cs, rfl, hcs⟩ := exists_chars h.1
      refine ⟨cs, rfl, hcs, ?_⟩
      simpa [List.filterMap_map, Function.comp_def, Piece.char?] using h.2
    · assumption

namespace Template

/-- What stands after each slash of a template that starts with one. -/
def slashSegments (t : Template) : List (List Piece) := t.pieces.tail.splitOnP (· == .char '/')

structure Plain (t : Template) : Prop where
  rooted : t.pieces.head? = some (.char '/')
  plain : ∀ s ∈ t.slashSegments, isPlainSegment s

instance : DecidablePred Plain := fun t =>
  decidable_of_iff (t.pieces.head? = some (.char '/') ∧ ∀ s ∈ t.slashSegments, isPlainSegment s)
    ⟨fun ⟨hrooted, hplain⟩ => ⟨hrooted, hplain⟩, fun h => ⟨h.rooted, h.plain⟩⟩

/-- The segments of the path that is filled in. -/
def filledSegments (t : Template) (value : String → String) : List (List Char) :=
  t.slashSegments.map (·.flatMap (Piece.fill value))

variable {t : Template} {value : String → String}

theorem pieces_eq_cons_tail (h : t.Plain) : t.pieces = .char '/' :: t.pieces.tail :=
  (List.cons_head?_tail h.rooted).symm

/-- Every piece after the first slash is another slash, a character of plain text or a placeholder
that is a segment of its own. -/
theorem piece_cases (h : t.Plain) {p : Piece} (hp : p ∈ t.pieces.tail) :
    p = .char '/' ∨ (∃ c, p = .char c ∧ isComponentChar c) ∨
      ∃ name, p = .slot name ∧ [.slot name] ∈ t.slashSegments := by
  by_cases hslash : p = .char '/'
  · exact .inl hslash
  right
  obtain ⟨s, hs, hps⟩ : ∃ s ∈ t.slashSegments, p ∈ s :=
    Text.exists_mem_splitOnP_iff.mpr ⟨hp, by simpa using hslash⟩
  rcases slot_or_chars_of_isPlainSegment (h.plain s hs) with ⟨name, rfl⟩ | ⟨cs, rfl, hcs, -⟩
  · exact .inr ⟨name, List.mem_singleton.mp hps, hs⟩
  · obtain ⟨c, hc, rfl⟩ := List.mem_map.mp hps
    exact .inl ⟨c, rfl, hcs c hc⟩

theorem isSlash_of_isComponentChar {c : Char} (h : isComponentChar c) : isSlash c = false := by
  rw [isSlash, Bool.or_eq_false_iff, beq_eq_false_iff_ne, beq_eq_false_iff_ne]
  exact ⟨by rintro rfl; exact absurd h (by decide), by rintro rfl; exact absurd h (by decide)⟩

/-- The filled path has a segment for each segment of the template. -/
theorem filled_eq_cons (h : t.Plain) (value : String → String) :
    ∃ cs, (t.filled value).toList = '/' :: cs ∧ (∀ c ∈ cs, isPathSafe c ∧ c ≠ '\\') ∧
      cs.splitOnP isSlash = t.filledSegments value := by
  have hvalue (name : String) : ∀ c ∈ (encodeComponent (value name)).toList, isComponentChar c :=
    fun c hc => Encoding.isComponentChar_of_mem_encodeComponent hc
  have hchar {c : Char} (hc : isComponentChar c) : isPathSafe c ∧ c ≠ '\\' :=
    ⟨Destination.isPathSafe_of_isComponentChar hc, by rintro rfl; exact absurd hc (by decide)⟩
  refine ⟨t.pieces.tail.flatMap (Piece.fill value), ?_, ?_, ?_⟩
  · rw [toList_filled, pieces_eq_cons_tail h]
    rfl
  · intro c hc
    obtain ⟨p, hp, hc⟩ := List.mem_flatMap.mp hc
    rcases piece_cases h hp with rfl | ⟨d, rfl, hd⟩ | ⟨name, rfl, -⟩
    · obtain rfl := List.mem_singleton.mp hc
      decide
    · exact hchar (List.mem_singleton.mp hc ▸ hd)
    · exact hchar (hvalue name c hc)
  · apply Text.splitOnP_flatMap
    · intro p _ hslash
      obtain rfl := beq_iff_eq.mp hslash
      exact ⟨'/', rfl, by decide⟩
    · intro p hp hslash c hc
      rcases piece_cases h hp with rfl | ⟨d, rfl, hd⟩ | ⟨name, rfl, -⟩
      · exact absurd hslash (by decide)
      · exact isSlash_of_isComponentChar (List.mem_singleton.mp hc ▸ hd)
      · exact isSlash_of_isComponentChar (hvalue name c hc)

theorem mem_slashSegments_of_mem_placeholders (h : t.Plain) {name : String}
    (hname : name ∈ t.placeholders) : [.slot name] ∈ t.slashSegments := by
  rw [placeholders_eq_slots, pieces_eq_cons_tail h] at hname
  obtain ⟨p, hp, hslot⟩ := List.mem_filterMap.mp hname
  rcases List.mem_cons.mp hp with rfl | hp
  · cases hslot
  rcases piece_cases h hp with rfl | ⟨c, rfl, -⟩ | ⟨name', rfl, hs⟩
  · cases hslot
  · cases hslot
  · exact Option.some.inj hslot ▸ hs

theorem mem_placeholders_of_mem_slashSegments (h : t.Plain) {name : String}
    (hs : [.slot name] ∈ t.slashSegments) : name ∈ t.placeholders := by
  have hp : Piece.slot name ∈ t.pieces.tail :=
    (Text.exists_mem_splitOnP_iff.mp ⟨_, hs, List.mem_singleton_self _⟩).1
  rw [placeholders_eq_slots, pieces_eq_cons_tail h]
  exact List.mem_filterMap.mpr ⟨_, List.mem_cons_of_mem _ hp, rfl⟩

/-- No segment is a dot segment unless a value consists of one or two dots. -/
theorem no_dot_segment_iff (h : t.Plain) (value : String → String) :
    (∀ s ∈ t.filledSegments value, isDotSegment s = false) ↔
      ∀ name ∈ t.placeholders, value name ≠ "." ∧ value name ≠ ".." := by
  have hslot (name : String) : isDotSegment ([Piece.slot name].flatMap (Piece.fill value)) = false ↔
      value name ≠ "." ∧ value name ≠ ".." := by
    rw [List.flatMap_singleton, Piece.fill, Bool.eq_false_iff, ne_eq,
      Destination.isDotSegment_encodeComponent, not_or]
  rw [filledSegments, List.forall_mem_map]
  constructor
  · intro hnone name hname
    exact (hslot name).mp (hnone _ (mem_slashSegments_of_mem_placeholders h hname))
  · intro hvalues s hs
    rcases slot_or_chars_of_isPlainSegment (h.plain s hs) with ⟨name, rfl⟩ | ⟨cs, rfl, -, hdots⟩
    · exact (hslot name).mpr (hvalues name (mem_placeholders_of_mem_slashSegments h hs))
    · simpa [List.flatMap_map, Piece.fill] using hdots

end Template
end RestClient.Path
