import Mathlib.Data.List.Basic
import Mathlib.Data.List.DropRight
import RestClient.Text.Basic

namespace RestClient.Text

theorem dropWhile_append_of_not {p : Char → Bool} {l : List Char} (h : ∀ c ∈ l, p c = false)
    (hne : l ≠ []) (r : List Char) : (l ++ r).dropWhile p = l ++ r := by
  obtain ⟨c, l, rfl⟩ := List.exists_cons_of_ne_nil hne
  exact List.dropWhile_cons_of_neg (by simp [h c])

theorem dropSuffixWhile_append_of_not {p : Char → Bool} {l : List Char}
    (h : ∀ c ∈ l, p c = false) (hne : l ≠ []) (r : List Char) :
    dropSuffixWhile p (l ++ r) = l ++ dropSuffixWhile p r := by
  have hreverse : l.reverse.dropWhile p = l.reverse := by
    simpa using dropWhile_append_of_not (l := l.reverse) (by simpa using h) (by simpa using hne) []
  rw [dropSuffixWhile, List.reverse_append, List.dropWhile_append, hreverse]
  split
  · rename_i hr
    simp [dropSuffixWhile, List.isEmpty_iff.mp hr]
  · simp [dropSuffixWhile]

/-- Where something is left, nothing before it is lost. -/
theorem dropSuffixWhile_append {p : Char → Bool} {r : List Char} (h : dropSuffixWhile p r ≠ [])
    (l : List Char) : dropSuffixWhile p (l ++ r) = l ++ dropSuffixWhile p r := by
  have hne : r.reverse.dropWhile p ≠ [] := by simpa [dropSuffixWhile] using h
  rw [dropSuffixWhile, List.reverse_append, List.dropWhile_append,
    if_neg (by simpa using hne), List.reverse_append, List.reverse_reverse]
  rfl

theorem exists_dropSuffixWhile_append (p : Char → Bool) (l : List Char) :
    ∃ after, l = dropSuffixWhile p l ++ after ∧ ∀ c ∈ after, p c :=
  ⟨l.rtakeWhile p, List.rdropWhile_append_rtakeWhile.symm, fun _ => List.mem_rtakeWhile_imp⟩

theorem getLast?_dropSuffixWhile {p : Char → Bool} {l : List Char} :
    ∀ c ∈ (dropSuffixWhile p l).getLast?, p c = false := by
  intro c hc
  obtain ⟨hne, rfl⟩ := List.mem_getLast?_eq_getLast hc
  exact Bool.eq_false_iff.mpr (List.rdropWhile_last_not p l hne)

theorem dropSuffixWhile_eq_self {p : Char → Bool} {l : List Char}
    (h : ∀ c ∈ l.getLast?, p c = false) : dropSuffixWhile p l = l :=
  List.rdropWhile_eq_self_iff.mpr fun hne =>
    Bool.eq_false_iff.mp (h _ (List.getLast?_eq_some_getLast hne))

/-- What stands in `s` between the characters at its ends that satisfy `p`. -/
structure Trims (p : Char → Bool) (s t : List Char) : Prop where
  split : ∃ before after, s = before ++ t ++ after ∧ (∀ c ∈ before, p c) ∧ ∀ c ∈ after, p c
  head : ∀ c ∈ t.head?, p c = false
  last : ∀ c ∈ t.getLast?, p c = false

theorem trims_trimChars (p : Char → Bool) (cs : List Char) : Trims p cs (trimChars p cs) where
  split := by
    obtain ⟨after, hafter, hblank⟩ := exists_dropSuffixWhile_append p (cs.dropWhile p)
    refine ⟨cs.takeWhile p, after, ?_, fun c => List.mem_takeWhile_imp, hblank⟩
    rw [trimChars, List.append_assoc, ← hafter, List.takeWhile_append_dropWhile]
  head := by
    intro c hc
    obtain ⟨after, hafter⟩ := dropSuffixWhile_prefix p (cs.dropWhile p)
    have hkept : (dropSuffixWhile p (cs.dropWhile p)).head? = some c := hc
    have hfirst : (cs.dropWhile p).head? = some c := by
      rw [← hafter, List.head?_append, hkept, Option.some_or]
    simpa [hfirst] using List.head?_dropWhile_not p cs
  last := getLast?_dropSuffixWhile

/-- What begins with the whole text was not trimmed from it. -/
theorem Trims.eq_of_prefix {p : Char → Bool} {s t : List Char} (h : Trims p s t) (hst : s <+: t) :
    t = s := by
  obtain ⟨before, after, hsplit, -⟩ := h.split
  have hlength : t.length ≤ s.length := by
    simp only [hsplit, List.length_append]
    omega
  exact (hst.eq_of_length_le hlength).symm

theorem trimChars_eq_self {p : Char → Bool} {cs : List Char} (hhead : ∀ c ∈ cs.head?, p c = false)
    (hlast : ∀ c ∈ cs.getLast?, p c = false) : trimChars p cs = cs := by
  have hdrop : cs.dropWhile p = cs := by
    cases cs with
    | nil => rfl
    | cons c cs => exact List.dropWhile_cons_of_neg (by simpa using hhead c rfl)
  rw [trimChars, hdrop, dropSuffixWhile_eq_self hlast]

theorem takeWhile_append_of_head? {q : Char → Bool} {r : List Char}
    (h : ∀ c ∈ r.head?, q c = false) (l : List Char) : (l ++ r).takeWhile q = l.takeWhile q := by
  have hr : r.takeWhile q = [] := by
    cases r with
    | nil => rfl
    | cons c r => exact List.takeWhile_cons_of_neg (by simpa using h c rfl)
  rw [List.takeWhile_append, hr, List.append_nil]
  split
  case isTrue hall => exact ((List.takeWhile_prefix q).eq_of_length hall).symm
  case isFalse => rfl

theorem trims_trim (s : String) : Trims isBlank s.toList (trim s).toList := by
  rw [trim, String.toList_ofList]
  exact trims_trimChars isBlank s.toList

theorem trim_eq_self {s : String} (hhead : ∀ c ∈ s.toList.head?, isBlank c = false)
    (hlast : ∀ c ∈ s.toList.getLast?, isBlank c = false) : trim s = s := by
  rw [trim, trimChars_eq_self hhead hlast, String.ofList_toList]

theorem toList_dropTrailingSlashes (s : String) :
    (dropTrailingSlashes s).toList = dropSuffixWhile (· == '/') s.toList := by
  rw [dropTrailingSlashes, String.toList_ofList]

theorem exists_dropTrailingSlashes (s : String) :
    ∃ n, s.toList = (dropTrailingSlashes s).toList ++ List.replicate n '/' := by
  obtain ⟨after, hafter, hslashes⟩ := exists_dropSuffixWhile_append (· == '/') s.toList
  refine ⟨after.length, ?_⟩
  rw [toList_dropTrailingSlashes]
  have hsame : after = List.replicate after.length '/' :=
    List.eq_replicate_of_mem fun c hc => by simpa using hslashes c hc
  rw [← hsame]
  exact hafter

theorem trim_isEmpty_eq_false {s : String} {c : Char} {cs : List Char} (hs : s.toList = c :: cs)
    (hc : isBlank c = false) : (trim s).isEmpty = false := by
  have hfirst : ∀ d ∈ [c], isBlank d = false := by simpa using hc
  have hstart := dropWhile_append_of_not hfirst (by simp) cs
  have hkept := dropSuffixWhile_append_of_not hfirst (by simp) cs
  rw [List.singleton_append] at hstart hkept
  rw [trim, trimChars, hs, hstart, hkept]
  simp

end RestClient.Text
