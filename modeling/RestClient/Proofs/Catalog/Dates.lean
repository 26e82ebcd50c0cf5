import Mathlib.Tactic.IntervalCases
import RestClient.Catalog.Date
import RestClient.Proofs.Http.Target
import RestClient.Proofs.Text.Trim

namespace RestClient.Date

/-- The days of the months of a common year. -/
def monthLengths : List Nat := [31, 28, 31, 30, 31, 30, 31, 31, 30, 31, 30, 31]

/-- Every fourth year is a leap year, but of the centuries only every fourth one is. -/
def Leap (year : Int) : Prop := 4 ∣ year ∧ (100 ∣ year → 400 ∣ year)

/-- The month is one of the twelve, and has the day. -/
structure OnCalendar (year : Int) (month day : Nat) : Prop where
  month_pos : 1 ≤ month
  month_le : month ≤ 12
  day_pos : 1 ≤ day
  day_le : ∃ length, monthLengths[month - 1]? = some length ∧
    (day ≤ length ∨ month = 2 ∧ day = 29 ∧ Leap year)

/-- Digits, and the number that they make. -/
structure Numeral (cs : List Char) (n : Nat) : Prop where
  ne_nil : cs ≠ []
  digits : ∀ c ∈ cs, c.isDigit
  value : Nat.ofDigitChars 10 cs 0 = n

/-- A month or a day. -/
structure Short (cs : List Char) (n : Nat) : Prop extends Numeral cs n where
  length_le : cs.length ≤ 2

/-- A year has up to four digits, or a sign and any number of them. -/
inductive Year : List Char → Int → Prop
  | plain {ds : List Char} {n : Nat} (h : Numeral ds n) (hlength : ds.length ≤ 4) : Year ds n
  | plus {ds : List Char} {n : Nat} (h : Numeral ds n) : Year ('+' :: ds) n
  | minus {ds : List Char} {n : Nat} (h : Numeral ds n) : Year ('-' :: ds) (-n)

/-- A text of a kind, with blanks before it. -/
def Padded {α : Type} (p : List Char → α → Prop) (cs : List Char) (a : α) : Prop :=
  ∃ blanks text, cs = blanks ++ text ∧ (∀ c ∈ blanks, Text.isBlank c) ∧ p text a

/-- The text of a date, field by field. -/
def Spells (cs : List Char) (d : Date) : Prop :=
  ∃ year month day, cs = year ++ '-' :: (month ++ '-' :: day) ∧
    Padded Year year d.year ∧ Padded Short month d.month ∧ Padded Short day d.day

/-- What a reader accepts at the start of a text, as far as no digit follows. -/
structure Reads {α : Type} (read : List Char → Option (α × List Char))
    (p : List Char → α → Prop) : Prop where
  sound : ∀ {cs rest a}, read cs = some (a, rest) → ∃ text, cs = text ++ rest ∧ p text a
  complete : ∀ {text rest a}, p text a → (∀ c ∈ rest.head?, c.isDigit = false) →
    read (text ++ rest) = some (a, rest)

theorem isLeap_iff {year : Int} : isLeap year ↔ Leap year := by
  simp only [isLeap, Leap, Bool.and_eq_true, Bool.or_eq_true, bne_iff_ne, beq_iff_eq,
    Int.dvd_iff_emod_eq_zero]
  tauto

theorem exists_monthLength_iff {year : Int} {month day : Nat} (hpos : 1 ≤ month)
    (hle : month ≤ 12) :
    (∃ length, monthLengths[month - 1]? = some length ∧
      (day ≤ length ∨ month = 2 ∧ day = 29 ∧ Leap year)) ↔ day ≤ daysInMonth year month := by
  by_cases hfebruary : month = 2
  · subst hfebruary
    rw [← isLeap_iff]
    by_cases hleap : isLeap year
    · simp [monthLengths, daysInMonth, hleap]
      omega
    · simp [monthLengths, daysInMonth, hleap]
  · interval_cases month <;> simp_all [monthLengths, daysInMonth]

theorem isReal_iff {d : Date} :
    d.isReal ↔ minYear ≤ d.year ∧ d.year ≤ maxYear ∧ OnCalendar d.year d.month d.day := by
  simp only [isReal, Bool.and_eq_true, decide_eq_true_eq, and_assoc]
  constructor
  · rintro ⟨hmin, hmax, hpos, hle, hday, hlength⟩
    exact ⟨hmin, hmax, hpos, hle, hday, (exists_monthLength_iff hpos hle).mpr hlength⟩
  · rintro ⟨hmin, hmax, hpos, hle, hday, hlength⟩
    exact ⟨hmin, hmax, hpos, hle, hday, (exists_monthLength_iff hpos hle).mp hlength⟩

theorem reads_number (limit : Nat) :
    Reads (number? limit) fun cs n => Numeral cs n ∧ cs.length ≤ limit where
  sound {cs rest n} h := by
    rw [number?] at h
    split at h
    case isTrue => cases h
    case isFalse hne =>
      obtain ⟨rfl, rfl⟩ := Prod.mk.inj (Option.some.inj h)
      have hprefix : (cs.takeWhile Char.isDigit).take limit <+: cs :=
        (List.take_prefix _ _).trans (List.takeWhile_prefix _)
      refine ⟨_, (List.prefix_iff_eq_append.mp hprefix).symm, ⟨by simpa using hne, ?_, rfl⟩, ?_⟩
      · intro c hc
        exact List.mem_takeWhile_imp (List.mem_of_mem_take hc)
      · exact List.length_take_le _ _
  complete {cs rest n} h hrest := by
    obtain ⟨hcs, hlength⟩ := h
    have hdigits : cs.takeWhile Char.isDigit = cs := List.takeWhile_eq_self_iff.mpr hcs.digits
    rw [number?, Text.takeWhile_append_of_head? hrest, hdigits, List.take_of_length_le hlength]
    simp [hcs.ne_nil, hcs.value]

theorem Numeral.exists_cons {cs : List Char} {n : Nat} (h : Numeral cs n) :
    ∃ c rest, cs = c :: rest ∧ c.isDigit := by
  obtain ⟨c, rest, rfl⟩ := List.exists_cons_of_ne_nil h.ne_nil
  exact ⟨c, rest, rfl, h.digits c List.mem_cons_self⟩

theorem ofDigitChars_lt {cs : List Char} (h : ∀ c ∈ cs, c.isDigit) (start : Nat) :
    Nat.ofDigitChars 10 cs start < (start + 1) * 10 ^ cs.length := by
  induction cs generalizing start with
  | nil => simp
  | cons c cs ih =>
    obtain ⟨hc, hcs⟩ := List.forall_mem_cons.mp h
    have hdigit : c.toNat - '0'.toNat < 10 := by
      have hrange := Char.isDigit_iff_toNat.mp hc
      simp only [Char.reduceToNat] at hrange ⊢
      omega
    rw [Nat.ofDigitChars_cons, List.length_cons, pow_succ']
    calc Nat.ofDigitChars 10 cs (10 * start + (c.toNat - '0'.toNat))
        < (10 * start + (c.toNat - '0'.toNat) + 1) * 10 ^ cs.length := ih hcs _
      _ ≤ ((start + 1) * 10) * 10 ^ cs.length := Nat.mul_le_mul_right _ (by omega)
      _ = (start + 1) * (10 * 10 ^ cs.length) := Nat.mul_assoc _ _ _

theorem Numeral.lt {cs : List Char} {n : Nat} (h : Numeral cs n) : n < 10 ^ cs.length := by
  simpa [h.value] using ofDigitChars_lt h.digits 0

theorem reads_year : Reads year? Year where
  sound {cs rest year} h := by
    rw [year?.eq_def] at h
    split at h
    all_goals
      obtain ⟨⟨n, rest'⟩, hn, hpair⟩ := Option.map_eq_some_iff.mp h
      obtain ⟨rfl, rfl⟩ := Prod.mk.inj hpair
      obtain ⟨ds, rfl, hds, hlength⟩ := (reads_number _).sound hn
    · exact ⟨'+' :: ds, rfl, .plus hds⟩
    · exact ⟨'-' :: ds, rfl, .minus hds⟩
    · exact ⟨ds, rfl, .plain hds hlength⟩
  complete {cs rest year} h hrest := by
    cases h with
    | @plain _ n h hlength =>
      obtain ⟨c, ds, rfl, hc⟩ := h.exists_cons
      have hnumber := (reads_number 4).complete ⟨h, hlength⟩ hrest
      rw [List.cons_append] at hnumber ⊢
      -- A digit is neither of the signs.
      rw [year?, hnumber]
      · rfl
      · rintro cs' h'
        obtain ⟨rfl, -⟩ := List.cons.inj h'
        exact absurd hc (by decide)
      · rintro cs' h'
        obtain ⟨rfl, -⟩ := List.cons.inj h'
        exact absurd hc (by decide)
    | @plus ds n h =>
      have hnumber := (reads_number (ds ++ rest).length).complete ⟨h, by simp⟩ hrest
      rw [List.cons_append, year?, hnumber]
      rfl
    | @minus ds n h =>
      have hnumber := (reads_number (ds ++ rest).length).complete ⟨h, by simp⟩ hrest
      rw [List.cons_append, year?, hnumber]
      rfl

theorem Reads.skipBlanks {α : Type} {read : List Char → Option (α × List Char)}
    {p : List Char → α → Prop} (h : Reads read p)
    (hstart : ∀ {text a}, p text a → ∃ c cs, text = c :: cs ∧ Text.isBlank c = false) :
    Reads (fun cs => read (skipBlanks cs)) (Padded p) where
  sound {cs rest a} hread := by
    obtain ⟨text, hcs, htext⟩ := h.sound hread
    refine ⟨cs.takeWhile Text.isBlank ++ text, ?_, _, text, rfl, ?_, htext⟩
    · rw [List.append_assoc, ← hcs]
      exact List.takeWhile_append_dropWhile.symm
    · exact fun c hc => List.mem_takeWhile_imp hc
  complete {cs rest a} hcs hrest := by
    obtain ⟨blanks, text, rfl, hblanks, htext⟩ := hcs
    obtain ⟨c, cs, rfl, hc⟩ := hstart htext
    have hskip : Date.skipBlanks (blanks ++ c :: cs ++ rest) = c :: cs ++ rest := by
      rw [Date.skipBlanks, List.append_assoc, List.dropWhile_append_of_pos hblanks]
      exact List.dropWhile_cons_of_neg (by simp [hc])
    rw [hskip]
    exact h.complete htext hrest

theorem isBlank_of_isDigit {c : Char} (h : c.isDigit) : Text.isBlank c = false :=
  Destination.isBlank_of_isPlainAscii
    (Destination.isPlainAscii_of_isAlphanum (Bool.or_eq_true_iff.mpr (.inr h)))

theorem reads_paddedYear : Reads (fun cs => year? (skipBlanks cs)) (Padded Year) := by
  apply reads_year.skipBlanks
  intro cs year h
  cases h with
  | plain h =>
    obtain ⟨c, ds, rfl, hc⟩ := h.exists_cons
    exact ⟨c, ds, rfl, isBlank_of_isDigit hc⟩
  | plus => exact ⟨'+', _, rfl, by decide⟩
  | minus => exact ⟨'-', _, rfl, by decide⟩

theorem reads_paddedShort : Reads (fun cs => number? 2 (skipBlanks cs)) (Padded Short) := by
  have hshort : Reads (number? 2) Short :=
    ⟨fun h => by
      obtain ⟨text, hcs, htext, hlength⟩ := (reads_number 2).sound h
      exact ⟨text, hcs, htext, hlength⟩,
     fun h => (reads_number 2).complete ⟨h.toNumeral, h.length_le⟩⟩
  apply hshort.skipBlanks
  intro cs n h
  obtain ⟨c, ds, rfl, hc⟩ := h.exists_cons
  exact ⟨c, ds, rfl, isBlank_of_isDigit hc⟩

theorem dash?_eq_some_iff {cs rest : List Char} : dash? cs = some rest ↔ cs = '-' :: rest := by
  rw [dash?.eq_def]
  split <;> simp_all

theorem parse?_eq_some_iff {text : String} {d : Date} :
    parse? text = some d ↔ Spells text.toList d ∧ d.isReal := by
  simp only [parse?, Option.bind_eq_bind, Option.bind_eq_some_iff, Prod.exists, dash?_eq_some_iff,
    Option.ite_none_right_eq_some, Option.some.injEq, Bool.and_eq_true, List.isEmpty_iff]
  constructor
  · rintro ⟨y, _, hy, _, rfl, m, _, hm, _, rfl, n, _, hn, ⟨rfl, hreal⟩, rfl⟩
    obtain ⟨year, htext, hyear⟩ := reads_paddedYear.sound hy
    obtain ⟨month, rfl, hmonth⟩ := reads_paddedShort.sound hm
    obtain ⟨day, rfl, hday⟩ := reads_paddedShort.sound hn
    rw [List.append_nil] at htext
    exact ⟨⟨year, month, day, htext, hyear, hmonth, hday⟩, hreal⟩
  · rintro ⟨⟨year, month, day, htext, hyear, hmonth, hday⟩, hreal⟩
    have hdash : ∀ rest : List Char, ∀ c ∈ ('-' :: rest).head?, c.isDigit = false := by
      rintro rest c ⟨⟩
      decide
    have hnone : ∀ c ∈ ([] : List Char).head?, c.isDigit = false := by simp
    have hend := reads_paddedShort.complete hday hnone
    rw [List.append_nil] at hend
    rw [htext]
    exact ⟨_, _, reads_paddedYear.complete hyear (hdash _), _, rfl,
      _, _, reads_paddedShort.complete hmonth (hdash _), _, rfl, _, _, hend, ⟨rfl, hreal⟩, rfl⟩

end RestClient.Date
