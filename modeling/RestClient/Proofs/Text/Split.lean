import RestClient.Text.Basic

namespace RestClient.Text

variable {α β : Type}

theorem splitAtEach_eq_splitOnP (p : Char → Bool) (cs : List Char) :
    splitAtEach p cs = cs.splitOnP p := by
  induction cs with
  | nil => rfl
  | cons c cs ih =>
    obtain ⟨piece, pieces, hpieces⟩ := List.exists_cons_of_ne_nil (List.splitOnP_ne_nil p cs)
    rw [splitAtEach, List.splitOnP_cons_eq_if_modifyHead, ih, hpieces]
    rfl

theorem splitOnP_append_of_not {q : β → Bool} {l : List β} (h : ∀ b ∈ l, q b = false) (r : List β) :
    (l ++ r).splitOnP q = (r.splitOnP q).modifyHead (l ++ ·) := by
  induction l with
  | nil =>
    obtain ⟨piece, pieces, hpieces⟩ := List.exists_cons_of_ne_nil (List.splitOnP_ne_nil q r)
    rw [List.nil_append, hpieces]
    rfl
  | cons b l ih =>
    obtain ⟨hb, hl⟩ := List.forall_mem_cons.mp h
    obtain ⟨piece, pieces, hpieces⟩ := List.exists_cons_of_ne_nil (List.splitOnP_ne_nil q r)
    rw [List.cons_append, List.splitOnP_cons_eq_if_modifyHead, ih hl, hb, hpieces]
    rfl

/-- Where each separator is written as one, and nothing else writes one, the split text consists of
the split elements. -/
theorem splitOnP_flatMap {p : α → Bool} {q : β → Bool} {f : α → List β} {l : List α}
    (hseparator : ∀ a ∈ l, p a → ∃ b, f a = [b] ∧ q b)
    (hother : ∀ a ∈ l, p a = false → ∀ b ∈ f a, q b = false) :
    (l.flatMap f).splitOnP q = (l.splitOnP p).map (·.flatMap f) := by
  induction l with
  | nil => rfl
  | cons a l ih =>
    have hrest := ih (fun x hx => hseparator x (List.mem_cons_of_mem a hx))
      (fun x hx => hother x (List.mem_cons_of_mem a hx))
    rw [List.flatMap_cons, List.splitOnP_cons_eq_if_modifyHead (p := p)]
    by_cases ha : p a
    · obtain ⟨b, hb, hq⟩ := hseparator a List.mem_cons_self ha
      rw [if_pos ha, hb, List.singleton_append, List.splitOnP_cons_eq_if_modifyHead, if_pos hq,
        hrest]
      rfl
    · have hplain := hother a List.mem_cons_self (Bool.eq_false_iff.mpr ha)
      obtain ⟨piece, pieces, hpieces⟩ := List.exists_cons_of_ne_nil (List.splitOnP_ne_nil p l)
      rw [if_neg ha, splitOnP_append_of_not hplain, hrest, hpieces]
      rfl

/-- The pieces hold what is not a separator. -/
theorem flatten_splitOnP (q : β → Bool) (l : List β) :
    (l.splitOnP q).flatten = l.filter (!q ·) := by
  induction l with
  | nil => rfl
  | cons b l ih =>
    obtain ⟨piece, pieces, hpieces⟩ := List.exists_cons_of_ne_nil (List.splitOnP_ne_nil q l)
    rw [hpieces] at ih
    rw [List.splitOnP_cons_eq_if_modifyHead, hpieces]
    by_cases hq : q b
    · simpa [hq] using ih
    · simpa [hq] using ih

theorem exists_mem_splitOnP_iff {q : β → Bool} {l : List β} {b : β} :
    (∃ piece ∈ l.splitOnP q, b ∈ piece) ↔ b ∈ l ∧ q b = false := by
  rw [← List.mem_flatten, flatten_splitOnP, List.mem_filter, Bool.not_eq_true']

/-- The pieces hold no separator, and joined by separators they make up the text. -/
theorem splitOn_eq_iff [BEq β] [LawfulBEq β] {separator : β} {l : List β} {pieces : List (List β)} :
    l.splitOn separator = pieces ↔
      pieces ≠ [] ∧ l = [separator].intercalate pieces ∧ ∀ piece ∈ pieces, separator ∉ piece := by
  constructor
  · rintro rfl
    refine ⟨List.splitOnP_ne_nil _ l, (List.intercalate_splitOn separator).symm, ?_⟩
    intro piece hpiece hmem
    have hnot := (exists_mem_splitOnP_iff.mp ⟨piece, hpiece, hmem⟩).2
    simp at hnot
  · rintro ⟨hne, rfl, hpieces⟩
    exact List.splitOn_intercalate separator hpieces hne

/-- The pieces with the separator before each of them. -/
theorem flatMap_splitOnP {q : β → Bool} {separator : β} {l : List β}
    (h : ∀ b ∈ l, q b → b = separator) :
    (l.splitOnP q).flatMap (separator :: ·) = separator :: l := by
  induction l with
  | nil => rfl
  | cons b l ih =>
    obtain ⟨hb, hl⟩ := List.forall_mem_cons.mp h
    have hrest := ih hl
    rw [List.splitOnP_cons_eq_if_modifyHead]
    by_cases hq : q b
    · rw [if_pos hq, List.flatMap_cons, hrest, hb hq]
      rfl
    · obtain ⟨piece, pieces, hpieces⟩ := List.exists_cons_of_ne_nil (List.splitOnP_ne_nil q l)
      rw [hpieces, List.flatMap_cons, List.cons_append] at hrest
      have htail : piece ++ pieces.flatMap (separator :: ·) = l := (List.cons.inj hrest).2
      rw [if_neg hq, hpieces, List.modifyHead_cons, List.flatMap_cons, List.cons_append,
        List.cons_append, htail]

end RestClient.Text
