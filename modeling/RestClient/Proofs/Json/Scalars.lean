import Mathlib.Data.List.TakeDrop
import Mathlib.Data.List.TakeWhile
import RestClient.Json.Parser
import RestClient.Json.Printer

namespace RestClient.Json.Reader

theorem hexValue?_hexDigit {n : Nat} (h : n < 16) : hexValue? (hexDigit n) = some n := by
  have hall : ∀ n < 16, hexValue? (hexDigit n) = some n := by decide
  exact hall n h

theorem hexUnit?_hexDigit {n : Nat} (h : n < 0x100) :
    hexUnit? '0' '0' (hexDigit (n / 16)) (hexDigit (n % 16)) = some n := by
  have hzero : hexValue? '0' = some 0 := by decide
  have hhigh := hexValue?_hexDigit (n := n / 16) (by omega)
  have hlow := hexValue?_hexDigit (n := n % 16) (by omega)
  have hvalue : ((0 * 16 + 0) * 16 + n / 16) * 16 + n % 16 = n := by omega
  simp only [hexUnit?, hzero, hhigh, hlow, Option.bind_eq_bind, Option.bind_some, hvalue]
  rfl

theorem stringAfter_escapeChar (c : Char) (acc cs : List Char) :
    stringAfter acc (escapeChar c ++ cs) = stringAfter (c :: acc) cs := by
  unfold escapeChar
  -- Seven characters have escapes of their own.
  iterate 7
    split
    case isTrue h =>
      subst h
      rfl
  split
  case isTrue h =>
    have hunit := hexUnit?_hexDigit (n := c.toNat) (by omega)
    have hhigh : isHighSurrogate c.toNat = false := by simp [isHighSurrogate]; omega
    have hlow : isLowSurrogate c.toNat = false := by simp [isLowSurrogate]; omega
    simp only [List.cons_append, List.nil_append]
    rw [stringAfter]
    simp [hunit, hhigh, hlow]
  case isFalse hquote hslash _ _ _ _ _ hcontrol =>
    rw [List.singleton_append, stringAfter]
    · simp [hslash, hcontrol]
    all_goals simp_all

theorem stringAfter_flatMap (cs acc rest : List Char) :
    stringAfter acc (cs.flatMap escapeChar ++ '"' :: rest) =
      some (String.ofList (acc.reverse ++ cs), rest) := by
  induction cs generalizing acc with
  | nil =>
    rw [List.append_nil]
    rfl
  | cons c cs ih =>
    rw [List.flatMap_cons, List.append_assoc, stringAfter_escapeChar, ih, List.reverse_cons,
      List.append_assoc, List.singleton_append]

theorem stringAfter_quoted (s : String) (rest : List Char) :
    stringAfter [] (s.toList.flatMap escapeChar ++ '"' :: rest) = some (s, rest) := by
  rw [stringAfter_flatMap]
  simp only [List.reverse_nil, List.nil_append, String.ofList_toList]

/-- A character with which a number goes on. -/
def isNumberChar (c : Char) : Bool := c.isDigit || c == '.' || c == 'e' || c == 'E'

/-- A number that stands before the text ends there. -/
def EndsNumber (rest : List Char) : Prop := ∀ c ∈ rest.head?, isNumberChar c = false

theorem endsNumber_nil : EndsNumber [] := by
  intro c hc
  cases hc

theorem endsNumber_cons {c : Char} (h : isNumberChar c = false) (rest : List Char) :
    EndsNumber (c :: rest) := by
  intro d hd
  obtain rfl := Option.some.inj hd
  exact h

variable {rest : List Char}

theorem isDigit_of_endsNumber (h : EndsNumber rest) : ∀ c ∈ rest.head?, c.isDigit = false := by
  intro c hc
  have hnumber := h c hc
  simp only [isNumberChar, Bool.or_eq_false_iff] at hnumber
  exact hnumber.1.1.1

theorem digits_append {ds : List Char} (hds : ∀ c ∈ ds, c.isDigit) (hne : ds ≠ [])
    (hrest : EndsNumber rest) : digits (ds ++ rest) = some (ds, rest) := by
  have hstop : rest.takeWhile Char.isDigit = [] ∧ rest.dropWhile Char.isDigit = rest := by
    cases rest with
    | nil => exact ⟨rfl, rfl⟩
    | cons c rest => simp [isDigit_of_endsNumber hrest c rfl]
  rw [digits, List.span_eq_takeWhile_dropWhile, List.takeWhile_append_of_pos hds,
    List.dropWhile_append_of_pos hds, hstop.1, hstop.2, List.append_nil]
  cases ds with
  | nil => exact absurd rfl hne
  | cons c ds => rfl

theorem isDigit_of_mem_toDigits {n : Nat} {c : Char} (h : c ∈ Nat.toDigits 10 n) : c.isDigit :=
  Nat.isDigit_of_mem_toDigits (by decide) (by decide) h

theorem toDigits_ne_zero_cons {n : Nat} (h : 0 < n) (ds : List Char) :
    Nat.toDigits 10 n ≠ '0' :: ds := by
  induction n using Nat.strongRecOn generalizing ds with
  | ind n ih =>
    rw [Nat.toDigits_eq_if (by decide)]
    split
    case isTrue hlt =>
      have hall : ∀ n < 10, 0 < n → n.digitChar ≠ '0' := by decide
      intro heq
      exact hall n hlt h (List.cons.inj heq).1
    case isFalse hge =>
      -- The first digit is that of the tenth part.
      obtain ⟨c, cs, hcs⟩ :=
        List.exists_cons_of_ne_nil (Nat.toDigits_ne_nil (n := n / 10) (b := 10))
      rw [hcs, List.cons_append]
      intro heq
      obtain ⟨rfl, -⟩ := List.cons.inj heq
      exact ih (n / 10) (by omega) (by omega) cs hcs

theorem wholeDigits_toDigits (n : Nat) (hrest : EndsNumber rest) :
    wholeDigits (Nat.toDigits 10 n ++ rest) = some (Nat.toDigits 10 n, rest) := by
  by_cases hn : n = 0
  · subst hn
    have hstop : (rest.head?.map Char.isDigit).getD false = false := by
      cases rest with
      | nil => rfl
      | cons c rest => exact isDigit_of_endsNumber hrest c rfl
    simp [wholeDigits, hstop]
  · have hdigits : digits (Nat.toDigits 10 n ++ rest) = some (Nat.toDigits 10 n, rest) :=
      digits_append (fun c => isDigit_of_mem_toDigits) Nat.toDigits_ne_nil hrest
    rw [wholeDigits]
    · exact hdigits
    · intro cs hcs
      obtain ⟨c, ds, hds⟩ := List.exists_cons_of_ne_nil (Nat.toDigits_ne_nil (n := n) (b := 10))
      rw [hds, List.cons_append] at hcs
      obtain ⟨rfl, -⟩ := List.cons.inj hcs
      exact toDigits_ne_zero_cons (Nat.pos_of_ne_zero hn) ds hds

theorem fraction_of_endsNumber (h : EndsNumber rest) : fraction rest = some (none, rest) := by
  rw [fraction]
  rintro cs rfl
  exact absurd (h '.' rfl) (by decide)

theorem exponent_of_endsNumber (h : EndsNumber rest) : exponent rest = some (none, rest) := by
  cases rest with
  | nil => rfl
  | cons c rest =>
    have hc : ¬ (c = 'e' ∨ c = 'E') := by
      rintro (rfl | rfl)
      · exact absurd (h 'e' rfl) (by decide)
      · exact absurd (h 'E' rfl) (by decide)
    simp only [exponent, if_neg hc]

theorem literal?_toDigits {n : Int} (h : isExact n) :
    literal? (decide (n < 0)) (Nat.toDigits 10 n.natAbs) none none = some (.int n) := by
  have hsigned : signed (decide (n < 0)) n.natAbs = n := by
    simp only [signed, decide_eq_true_eq]
    split <;> omega
  have hzero : ¬ (decide (n < 0) = true ∧ n.natAbs = 0) := by
    rw [decide_eq_true_eq]
    omega
  simp only [literal?, Nat.ofDigitChars_ten_toDigits, hsigned, h, hzero, not_false_eq_true,
    and_self, if_true]

/-- Whether a minus sign stands in front, and what stands behind it. -/
def minusSign : List Char → Bool × List Char
  | '-' :: cs => (true, cs)
  | cs => (false, cs)

/-- Reads a number behind its sign. -/
def unsigned (negative : Bool) : Reader Number := fun cs => do
  let (whole, cs) ← wholeDigits cs
  let (frac, cs) ← fraction cs
  let (exp, cs) ← exponent cs
  let n ← literal? negative whole frac exp
  return (n, cs)

theorem number_eq_unsigned (cs : List Char) :
    number cs = unsigned (minusSign cs).1 (minusSign cs).2 := rfl

theorem minusSign_toDigits (negative : Bool) (n : Nat) (rest : List Char) :
    minusSign (sign negative (Nat.toDigits 10 n) ++ rest) =
      (negative, Nat.toDigits 10 n ++ rest) := by
  cases negative with
  | true => rfl
  | false =>
    obtain ⟨c, ds, hds⟩ := List.exists_cons_of_ne_nil (Nat.toDigits_ne_nil (n := n) (b := 10))
    have hdigit : c.isDigit := isDigit_of_mem_toDigits (n := n) (by simp [hds])
    have hminus : c ≠ '-' := by
      rintro rfl
      exact absurd hdigit (by decide)
    simp only [sign, hds, Bool.false_eq_true, if_false, List.cons_append]
    rw [minusSign]
    simpa using hminus

theorem unsigned_toDigits {n : Int} (h : isExact n) (hrest : EndsNumber rest) :
    unsigned (decide (n < 0)) (Nat.toDigits 10 n.natAbs ++ rest) = some (.int n, rest) := by
  simp only [unsigned, wholeDigits_toDigits n.natAbs hrest, fraction_of_endsNumber hrest,
    exponent_of_endsNumber hrest, literal?_toDigits h, Option.bind_eq_bind, Option.bind_some]
  rfl

theorem number_chars {n : Int} (h : isExact n) (hrest : EndsNumber rest) :
    number ((Number.int n).chars ++ rest) = some (.int n, rest) := by
  simp only [number_eq_unsigned, Number.chars, minusSign_toDigits]
  exact unsigned_toDigits h hrest

end RestClient.Json.Reader
