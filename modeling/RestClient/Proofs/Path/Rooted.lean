import Mathlib.Data.List.TakeWhile
import RestClient.Path.Template
import RestClient.Proofs.Path.Decoding

namespace RestClient.Path

theorem startsWith_slash_iff {path : String} :
    path.startsWith "/" ↔ path.toList.head? = some '/' := by
  rw [String.startsWith_string_iff]
  change ['/'] <+: path.toList ↔ _
  cases path.toList with
  | nil => simp
  | cons c cs => simp [eq_comm]

theorem startsWith_slash_append {path : String} (h : path.startsWith "/") (rest : String) :
    (path ++ rest).startsWith "/" := by
  rw [startsWith_slash_iff] at h ⊢
  rw [String.toList_append, List.head?_append, h, Option.some_or]

/-- What is left without the slashes at the end begins as the path does; and where nothing is left,
the path begins with a slash. -/
theorem head?_dropTrailingSlashes {path : String} (h : path ≠ "") :
    (Text.dropTrailingSlashes path).toList.head?.getD '/' = path.toList.head?.getD '/' := by
  rw [Text.dropTrailingSlashes, String.toList_ofList]
  obtain ⟨c, cs, hcs⟩ := List.exists_cons_of_ne_nil (mt String.toList_eq_nil_iff.mp h)
  cases hkept : Text.dropSuffixWhile (· == '/') path.toList with
  | nil =>
    rw [Text.dropSuffixWhile, List.reverse_eq_nil_iff, List.dropWhile_eq_nil_iff] at hkept
    have hc : c = '/' := by simpa using hkept c (by simp [hcs])
    rw [hcs, hc]
    rfl
  | cons d ds =>
    have hbegin := hkept ▸ Text.dropSuffixWhile_prefix (· == '/') path.toList
    rw [hcs, List.cons_prefix_cons] at hbegin
    rw [hcs, hbegin.1]
    rfl

/-- A joined path begins as its base does. -/
theorem head?_join {base : String} (h : base ≠ "") (template : String) :
    (join base template).toList.head? = base.toList.head? := by
  obtain ⟨c, cs, hcs⟩ := List.exists_cons_of_ne_nil (mt String.toList_eq_nil_iff.mp h)
  have hdrop := head?_dropTrailingSlashes h
  rw [hcs] at hdrop ⊢
  simp only [join]
  cases hkept : (Text.dropTrailingSlashes base).toList with
  | nil =>
    -- A base of slashes alone leaves the slash of the template, or the one put before it.
    have hc : '/' = c := by simpa [hkept] using hdrop
    have hbase : Text.dropTrailingSlashes base = "" := String.toList_eq_nil_iff.mp hkept
    rw [hbase, ← hc]
    split
    · simp
    · split
      case isTrue hslash => simpa using startsWith_slash_iff.mp hslash
      case isFalse => simp
  | cons d ds =>
    have hd : d = c := by simpa [hkept] using hdrop
    have hne : (Text.dropTrailingSlashes base).isEmpty = false := by
      simp [← Bool.not_eq_true, ← String.toList_eq_nil_iff, hkept]
    split
    · simp [hne, hkept, hd]
    · split <;> simp [hkept, hd]

theorem startsWith_slash_join_iff {base : String} (h : base ≠ "") (template : String) :
    (join base template).startsWith "/" ↔ base.startsWith "/" := by
  rw [startsWith_slash_iff, startsWith_slash_iff, head?_join h]

theorem join_ne_empty {base : String} (h : base ≠ "") (template : String) :
    join base template ≠ "" := by
  intro hempty
  have hhead := head?_join h template
  rw [hempty] at hhead
  exact h (String.toList_eq_nil_iff.mp (List.head?_eq_none_iff.mp hhead.symm))

namespace Template

variable {t : Template} {value : String → String}

theorem startsWith_slash_text_iff :
    t.text.startsWith "/" ↔ t.pieces.head? = some (.char '/') := by
  rw [startsWith_slash_iff, toList_text]
  cases t.pieces with
  | nil => simp
  | cons p ps =>
    cases p with
    | char c => simp [Piece.text]
    | slot name => simp [Piece.text, slot]

theorem encodeComponent_eq_cons {s : String} (h : s ≠ "") :
    ∃ c cs, (Encoding.encodeComponent s).toList = c :: cs ∧ c ≠ '/' := by
  have hne : Encoding.encodeComponent s ≠ "" :=
    fun hempty => h (Encoding.encodeComponent_injective hempty)
  obtain ⟨c, cs, hcs⟩ := List.exists_cons_of_ne_nil (mt String.toList_eq_nil_iff.mp hne)
  refine ⟨c, cs, hcs, ?_⟩
  rintro rfl
  exact absurd (Encoding.isComponentChar_of_mem_encodeComponent (hcs ▸ List.mem_cons_self))
    (by decide)

/-- A filled path is empty or starts with a slash as the text of its template does: an encoded value
does not start with a slash, and only an empty one starts with nothing. -/
theorem starts_filled_iff (h : ∀ name ∈ t.placeholders, value name ≠ "") :
    ((t.filled value).startsWith "/" ↔ t.text.startsWith "/") ∧
      (t.filled value = "" ↔ t.text = "") := by
  rw [startsWith_slash_text_iff, startsWith_slash_iff, ← String.toList_eq_nil_iff,
    ← String.toList_eq_nil_iff, toList_filled, toList_text]
  rw [placeholders_eq_slots] at h
  cases hps : t.pieces with
  | nil => simp
  | cons p ps =>
    cases p with
    | char c => simp [Piece.fill, Piece.text]
    | slot name =>
      have hname : name ∈ t.pieces.filterMap Piece.slot? := by simp [hps, Piece.slot?]
      obtain ⟨c, cs, hcs, hslash⟩ := encodeComponent_eq_cons (h name hname)
      simp [Piece.fill, Piece.text, slot, hcs, hslash]

end Template
end RestClient.Path
