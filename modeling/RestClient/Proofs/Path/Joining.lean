import Mathlib.Data.List.Induction
import RestClient.Path.Template
import RestClient.Proofs.Path.Grammar

namespace RestClient.Text

theorem dropSuffixWhile_append_singleton {α : Type} (p : α → Bool) (l : List α) (a : α) :
    dropSuffixWhile p (l ++ [a]) = if p a then dropSuffixWhile p l else l ++ [a] := by
  rw [dropSuffixWhile, List.reverse_append, List.reverse_singleton, List.singleton_append,
    List.dropWhile_cons]
  split
  · rfl
  · simp

end RestClient.Text

namespace RestClient.Path

open Text

theorem flatMap_text_dropSlashes (ps : List Piece) :
    (dropSuffixWhile (· == .char '/') ps).flatMap Piece.text =
      dropSuffixWhile (· == '/') (ps.flatMap Piece.text) := by
  induction ps using List.reverseRecOn with
  | nil => rfl
  | append_singleton ps p ih =>
    rw [dropSuffixWhile_append_singleton, List.flatMap_append, List.flatMap_singleton]
    cases p with
    | char c =>
      rw [Piece.text, dropSuffixWhile_append_singleton, ← ih]
      by_cases hc : c = '/'
      · simp [hc]
      · simp [hc, Piece.text]
    | slot name =>
      rw [Piece.text_slot, ← List.cons_append, ← List.append_assoc,
        dropSuffixWhile_append_singleton]
      simp

theorem filterMap_slot?_dropSlashes (ps : List Piece) :
    (dropSuffixWhile (· == .char '/') ps).filterMap Piece.slot? = ps.filterMap Piece.slot? := by
  induction ps using List.reverseRecOn with
  | nil => rfl
  | append_singleton ps p ih =>
    rw [dropSuffixWhile_append_singleton]
    split
    case isTrue hp =>
      have hp : p = .char '/' := by simpa using hp
      rw [ih, List.filterMap_append, hp]
      simp [Piece.slot?]
    case isFalse => rfl

/-- What stands between a base and a template. -/
def separator (template : String) : String := if template.startsWith "/" then "" else "/"

theorem join_of_ne_empty (base : String) {template : String} (h : template ≠ "") :
    join base template = dropTrailingSlashes base ++ (separator template ++ template) := by
  have hempty : template.isEmpty = false := by simpa using h
  rw [join, hempty, separator]
  split
  case isTrue => contradiction
  case isFalse =>
    split <;> simp [String.append_assoc]

theorem join_root_of_ne_empty {template : String} (h : template ≠ "") :
    join "/" template = separator template ++ template := by
  have hroot : dropTrailingSlashes "/" = "" := by decide
  rw [join_of_ne_empty "/" h, hroot, String.empty_append]

/-- At most one slash is put between a base and what is joined to it. -/
theorem exists_join_eq (base template : String) :
    ∃ between, (between = "" ∨ between = "/") ∧
      join base template = dropTrailingSlashes base ++ (between ++ template) := by
  by_cases h : template = ""
  · subst h
    by_cases hbase : dropTrailingSlashes base = ""
    · exact ⟨"/", .inr rfl, by simp [join, hbase]⟩
    · exact ⟨"", .inl rfl, by simp [join, hbase]⟩
  · refine ⟨separator template, ?_, join_of_ne_empty base h⟩
    rw [separator]
    split
    · exact .inl rfl
    · exact .inr rfl

namespace Template

variable {ps : List Piece} {lead text : String}

theorem parse_append_of_ok (hps : ∀ p ∈ ps, p.Legal) (hlead : ps.flatMap Piece.text = lead.toList)
    {t : Template} (ht : parse text = .ok t) :
    ∃ t', parse (lead ++ text) = .ok t' ∧
      t'.placeholders = ps.filterMap Piece.slot? ++ t.placeholders := by
  obtain ⟨ps', hps', htext, hsegments⟩ := parse_eq_ok_iff.mp ht
  have hall : ∀ p ∈ ps ++ ps', p.Legal := List.forall_mem_append.mpr ⟨hps, hps'⟩
  have hspelled : (ps ++ ps').flatMap Piece.text = (lead ++ text).toList := by
    rw [List.flatMap_append, hlead, htext, String.toList_append]
  refine ⟨⟨gather [] (ps ++ ps')⟩, parse_eq_ok_iff.mpr ⟨_, hall, hspelled, rfl⟩, ?_⟩
  rw [placeholders_eq_slots, placeholders_eq_slots, pieces_of_segments_eq_gather hsegments,
    pieces_of_segments_eq_gather rfl, List.filterMap_append]

theorem parse_append_of_error (hps : ∀ p ∈ ps, p.Legal)
    (hlead : ps.flatMap Piece.text = lead.toList) {e : Malformed} (he : parse text = .error e) :
    parse (lead ++ text) = .error ⟨lead ++ text, lead.utf8ByteSize + e.position⟩ := by
  obtain ⟨ps', rest, hps', hrest, htext, rfl⟩ := parse_eq_error_iff.mp he
  refine parse_eq_error_iff.mpr
    ⟨ps ++ ps', rest, List.forall_mem_append.mpr ⟨hps, hps'⟩, hrest, ?_, ?_⟩
  · rw [String.toList_append, htext, List.flatMap_append, hlead, List.append_assoc]
  · rw [List.flatMap_append, Utf8.encode_append, List.length_append, hlead,
      Utf8.length_encode_toList]

/-- What a joined path has before its template: the pieces of the base without its last slashes, and
perhaps a slash of its own. -/
theorem exists_lead {base : String} {tb : Template} (hbase : parse base = .ok tb)
    (template : String) :
    ∃ (lead : String) (ps : List Piece), (∀ p ∈ ps, p.Legal) ∧
      ps.flatMap Piece.text = lead.toList ∧ ps.filterMap Piece.slot? = tb.placeholders ∧
      join base template = lead ++ template := by
  obtain ⟨ps, hps, htext, hsegments⟩ := parse_eq_ok_iff.mp hbase
  obtain ⟨between, hbetween, hjoin⟩ := exists_join_eq base template
  let kept := dropSuffixWhile (· == .char '/') ps
  have hbegin : kept <+: ps := dropSuffixWhile_prefix (· == .char '/') ps
  have hkept : ∀ p ∈ kept, p.Legal := fun p hp => hps p (hbegin.subset hp)
  have hkeptText : kept.flatMap Piece.text = (dropTrailingSlashes base).toList := by
    rw [flatMap_text_dropSlashes, htext, dropTrailingSlashes, String.toList_ofList]
  have hslots : kept.filterMap Piece.slot? = tb.placeholders := by
    rw [filterMap_slot?_dropSlashes, placeholders_eq_slots, pieces_of_segments_eq_gather hsegments]
  refine ⟨dropTrailingSlashes base ++ between, kept ++ between.toList.map .char, ?_, ?_, ?_, ?_⟩
  · rcases hbetween with rfl | rfl
    · simpa using hkept
    · have hslash : (Piece.char '/').Legal := by decide
      simpa [or_imp, forall_and] using ⟨hkept, hslash⟩
  · rcases hbetween with rfl | rfl <;> simp [hkeptText, Piece.text]
  · rcases hbetween with rfl | rfl <;> simp [hslots, Piece.slot?]
  · rw [hjoin, String.append_assoc]

/-- A base that is a template leaves it to what is joined to it whether the path is one. -/
theorem parse_join {base : String} {tb : Template} (hbase : parse base = .ok tb)
    (template : String) :
    ((∃ t, parse (join base template) = .ok t) ↔ ∃ t, parse template = .ok t) ∧
    ∀ t t', parse (join base template) = .ok t → parse template = .ok t' →
      t.placeholders = tb.placeholders ++ t'.placeholders := by
  obtain ⟨lead, ps, hps, hlead, hslots, hjoin⟩ := exists_lead hbase template
  rw [hjoin]
  cases htemplate : parse template with
  | error e =>
    rw [parse_append_of_error hps hlead htemplate]
    simp
  | ok t' =>
    obtain ⟨t, ht, hplaceholders⟩ := parse_append_of_ok hps hlead htemplate
    rw [ht]
    refine ⟨⟨fun _ => ⟨t', rfl⟩, fun _ => ⟨t, rfl⟩⟩, ?_⟩
    rintro _ _ ⟨⟩ ⟨⟩
    rw [hplaceholders, hslots]

end Template
end RestClient.Path
