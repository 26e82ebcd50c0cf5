import RestClient.Proofs.Json.Parts
import RestClient.Proofs.Json.Scalars

namespace RestClient.Json

open Reader

/-- A character with which the text of a value begins. -/
def isFirstChar (c : Char) : Bool := c.isDigit || ['n', 't', 'f', '"', '[', '{', '-'].contains c

theorem ne_of_isFirstChar {c d : Char} (h : isFirstChar c) (hd : isFirstChar d = false) :
    c ≠ d := by
  rintro rfl
  rw [h] at hd
  cases hd

theorem isSpace_of_isFirstChar {c : Char} (h : isFirstChar c) : isSpace c = false := by
  have hspace := ne_of_isFirstChar h (d := ' ') (by decide)
  have htab := ne_of_isFirstChar h (d := '\t') (by decide)
  have hnewline := ne_of_isFirstChar h (d := '\n') (by decide)
  have hreturn := ne_of_isFirstChar h (d := '\r') (by decide)
  simp [isSpace, hspace, htab, hnewline, hreturn]

theorem isFirstChar_of_isDigit_or {c : Char} (h : c.isDigit ∨ c = '-') : isFirstChar c := by
  rcases h with h | rfl
  · simp [isFirstChar, h]
  · decide

theorem exists_chars_int (n : Int) :
    ∃ c cs, (Number.int n).chars = c :: cs ∧ (c.isDigit ∨ c = '-') := by
  rw [Number.chars, sign]
  split
  · exact ⟨_, _, rfl, .inr rfl⟩
  · obtain ⟨c, cs, hcs⟩ :=
      List.exists_cons_of_ne_nil (Nat.toDigits_ne_nil (n := n.natAbs) (b := 10))
    exact ⟨c, cs, hcs, .inl (isDigit_of_mem_toDigits (n := n.natAbs) (by simp [hcs]))⟩

theorem exists_chars_eq_cons {v : Json} (h : v.WholeNumbers) :
    ∃ c cs, v.chars = c :: cs ∧ isFirstChar c := by
  cases v with
  | null => exact ⟨_, _, by rw [chars], by decide⟩
  | bool b => cases b <;> exact ⟨_, _, by rw [chars], by decide⟩
  | number n =>
    cases n with
    | real x => exact absurd (h _ (List.mem_singleton_self _)) Bool.false_ne_true
    | int n =>
      obtain ⟨c, cs, hcs, hc⟩ := exists_chars_int n
      exact ⟨c, cs, by rw [chars, hcs], isFirstChar_of_isDigit_or hc⟩
  | string s => exact ⟨_, _, by rw [chars, quoted, List.cons_append], by decide⟩
  | array items => cases items <;> exact ⟨_, _, by rw [chars], by decide⟩
  | object fields => cases fields <;> exact ⟨_, _, by rw [chars], by decide⟩

theorem endsNumber_moreItems (vs : List Json) (rest : List Char) :
    EndsNumber (moreItems vs ++ rest) := by
  cases vs with
  | nil => exact endsNumber_cons (by decide) rest
  | cons v vs =>
    rw [moreItems, List.cons_append]
    exact endsNumber_cons (by decide) _

theorem endsNumber_moreFields (fs : Entries Json) (rest : List Char) :
    EndsNumber (moreFields fs ++ rest) := by
  cases fs with
  | nil => exact endsNumber_cons (by decide) rest
  | cons f fs =>
    rw [moreFields, List.cons_append]
    exact endsNumber_cons (by decide) _

namespace Reader

variable {rest : List Char} {read : Reader Json}

theorem skipSpaces_cons {c : Char} (h : isSpace c = false) (cs : List Char) :
    skipSpaces (c :: cs) = c :: cs :=
  List.dropWhile_cons_of_neg (by simp [h])

/-- The reader gives back what was written. -/
def ReadsBack (read : Reader Json) (v : Json) : Prop :=
  ∀ rest, EndsNumber rest → read (v.chars ++ rest) = some (v, rest)

theorem itemsAfter_chars {v : Json} {vs : List Json} (hv : ReadsBack read v)
    (hvs : ∀ u ∈ vs, ReadsBack read u) {fuel : Nat} (hfuel : vs.length < fuel) (rest : List Char) :
    itemsAfter read fuel (v.chars ++ (moreItems vs ++ rest)) = some (v :: vs, rest) := by
  induction vs generalizing v fuel with
  | nil =>
    obtain ⟨fuel, rfl⟩ := Nat.exists_eq_succ_of_ne_zero (Nat.ne_of_gt hfuel)
    rw [itemsAfter, hv _ (endsNumber_moreItems [] rest)]
    rfl
  | cons u vs ih =>
    obtain ⟨fuel, rfl⟩ := Nat.exists_eq_succ_of_ne_zero (Nat.ne_of_gt (Nat.zero_lt_of_lt hfuel))
    obtain ⟨hu, hvs⟩ := List.forall_mem_cons.mp hvs
    have hmore := ih hu hvs (Nat.lt_of_succ_lt_succ hfuel)
    have hcomma : isSpace ',' = false := by decide
    rw [itemsAfter, hv _ (endsNumber_moreItems (u :: vs) rest), moreItems, List.cons_append,
      List.append_assoc]
    simp only [Option.bind_eq_bind, Option.bind_some, skipSpaces_cons hcomma, hmore]

theorem field_chars {k : String} {v : Json} (hv : ReadsBack read v) (hrest : EndsNumber rest) :
    field read (quoted k ++ ':' :: (v.chars ++ rest)) = some ((k, v), rest) := by
  have hquoted : quoted k ++ ':' :: (v.chars ++ rest) =
      '"' :: (k.toList.flatMap escapeChar ++ '"' :: ':' :: (v.chars ++ rest)) := by
    simp [quoted]
  have hcolon : isSpace ':' = false := by decide
  rw [hquoted, field, skipSpaces_cons (by decide)]
  simp only [stringAfter_quoted, Option.bind_eq_bind, Option.bind_some, skipSpaces_cons hcolon,
    hv rest hrest]

theorem fieldsAfter_chars {k : String} {v : Json} {fs : Entries Json} (hv : ReadsBack read v)
    (hfs : ∀ f ∈ fs, ReadsBack read f.2) {fuel : Nat} (hfuel : fs.length < fuel)
    (rest : List Char) :
    fieldsAfter read fuel (quoted k ++ ':' :: (v.chars ++ (moreFields fs ++ rest))) =
      some ((k, v) :: fs, rest) := by
  induction fs generalizing k v fuel with
  | nil =>
    obtain ⟨fuel, rfl⟩ := Nat.exists_eq_succ_of_ne_zero (Nat.ne_of_gt hfuel)
    rw [fieldsAfter, field_chars hv (endsNumber_moreFields [] rest)]
    rfl
  | cons f fs ih =>
    obtain ⟨fuel, rfl⟩ := Nat.exists_eq_succ_of_ne_zero (Nat.ne_of_gt (Nat.zero_lt_of_lt hfuel))
    obtain ⟨hf, hfs⟩ := List.forall_mem_cons.mp hfs
    have hmore := ih (k := f.1) hf hfs (Nat.lt_of_succ_lt_succ hfuel)
    have hcomma : isSpace ',' = false := by decide
    rw [fieldsAfter, field_chars hv (endsNumber_moreFields (f :: fs) rest), moreFields]
    simp only [List.cons_append, List.append_assoc, Option.bind_eq_bind, Option.bind_some,
      skipSpaces_cons hcomma, hmore]

theorem value_of_scalar {c : Char} {cs : List Char} (hspace : isSpace c = false) (harray : c ≠ '[')
    (hobject : c ≠ '\x7b') (fuel depth : Nat) : value fuel depth (c :: cs) = scalar (c :: cs) := by
  cases depth with
  | zero => rw [value, skipSpaces_cons hspace]
  | succ depth =>
    rw [value, skipSpaces_cons hspace]
    split
    case h_1 heq => exact absurd (List.cons.inj heq).1 harray
    case h_2 heq => exact absurd (List.cons.inj heq).1 hobject
    case h_3 => rfl

theorem value_array {c : Char} (hc : isFirstChar c) (cs : List Char) (fuel depth : Nat) :
    value fuel (depth + 1) ('[' :: c :: cs) =
      (itemsAfter (value fuel depth) fuel (c :: cs)).map fun (vs, cs) => (.array vs, cs) := by
  rw [value, skipSpaces_cons (by decide)]
  simp only [skipSpaces_cons (isSpace_of_isFirstChar hc)]
  split
  case h_1 heq =>
    exact absurd (List.cons.inj heq).1 (ne_of_isFirstChar hc (by decide))
  case h_2 => rfl

theorem value_object (cs : List Char) (fuel depth : Nat) :
    value fuel (depth + 1) ('\x7b' :: '"' :: cs) =
      (fieldsAfter (value fuel depth) fuel ('"' :: cs)).map
        fun (fs, cs) => (.object (Entries.ofPairs fs), cs) := by
  rw [value, skipSpaces_cons (by decide)]
  rfl

theorem readsBack_string (s : String) (fuel depth : Nat) :
    ReadsBack (value fuel depth) (.string s) := by
  intro rest _
  have htext : (Json.string s).chars ++ rest =
      '"' :: (s.toList.flatMap escapeChar ++ '"' :: rest) := by
    simp [chars, quoted]
  rw [htext, value_of_scalar (by decide) (by decide) (by decide), scalar, stringAfter_quoted]
  rfl

theorem readsBack_int {n : Int} (h : isExact n) (fuel depth : Nat) :
    ReadsBack (value fuel depth) (.number (.int n)) := by
  intro rest hrest
  obtain ⟨c, cs, hcs, hc⟩ := exists_chars_int n
  have hnumber := number_chars h hrest
  -- No other scalar begins with a digit or a minus sign, and no container does.
  have hne (d : Char) (hd : d.isDigit = false) (hminus : d ≠ '-') : c ≠ d := by
    rintro rfl
    rcases hc with hc | rfl
    · cases hd.symm.trans hc
    · exact hminus rfl
  have hspace := isSpace_of_isFirstChar (isFirstChar_of_isDigit_or hc)
  rw [chars, hcs, List.cons_append] at *
  rw [value_of_scalar hspace (hne _ (by decide) (by decide)) (hne _ (by decide) (by decide)),
    scalar, hnumber]
  · rfl
  all_goals
    intro cs' heq
    exact hne _ (by decide) (by decide) (List.cons.inj heq).1

variable {fuel depth : Nat}

theorem readsBack_array {v : Json} {vs : List Json} (hv : ReadsBack (value fuel depth) v)
    (hvs : ∀ u ∈ vs, ReadsBack (value fuel depth) u) (hwhole : v.WholeNumbers)
    (hfuel : vs.length < fuel) : ReadsBack (value fuel (depth + 1)) (.array (v :: vs)) := by
  intro rest _
  have hitems := itemsAfter_chars hv hvs hfuel rest
  obtain ⟨c, cs, hcs, hc⟩ := exists_chars_eq_cons hwhole
  rw [chars, List.cons_append, List.append_assoc]
  rw [hcs, List.cons_append] at hitems ⊢
  rw [value_array hc, hitems]
  rfl

theorem readsBack_object {k : String} {v : Json} {fs : Entries Json}
    (hv : ReadsBack (value fuel depth) v) (hfs : ∀ f ∈ fs, ReadsBack (value fuel depth) f.2)
    (hkeys : (Entries.keys ((k, v) :: fs)).Nodup) (hfuel : fs.length < fuel) :
    ReadsBack (value fuel (depth + 1)) (.object ((k, v) :: fs)) := by
  intro rest _
  have hfields := fieldsAfter_chars (k := k) hv hfs hfuel rest
  simp only [chars, quoted, List.cons_append, List.append_assoc] at hfields ⊢
  rw [value_object, hfields]
  simp only [Option.map_some, Entries.ofPairs_of_nodup hkeys]

theorem length_moreItems (vs : List Json) :
    vs.length < (moreItems vs).length ∧ ∀ v ∈ vs, v.chars.length ≤ (moreItems vs).length := by
  induction vs with
  | nil => simp [moreItems]
  | cons v vs ih =>
    obtain ⟨hlength, hvs⟩ := ih
    simp only [moreItems, List.length_cons, List.length_append, List.forall_mem_cons]
    refine ⟨by omega, by omega, ?_⟩
    intro u hu
    have := hvs u hu
    omega

theorem length_moreFields (fs : Entries Json) :
    fs.length < (moreFields fs).length ∧
      ∀ f ∈ fs, f.2.chars.length ≤ (moreFields fs).length := by
  induction fs with
  | nil => simp [moreFields]
  | cons f fs ih =>
    obtain ⟨hlength, hfs⟩ := ih
    simp only [moreFields, List.length_cons, List.length_append, List.forall_mem_cons]
    refine ⟨by omega, by omega, ?_⟩
    intro g hg
    have := hfs g hg
    omega

/-- A reader that goes deep enough, and has fuel for the whole text, reads back what was written. -/
theorem readsBack_value {v : Json} (hformed : WellFormed depth v) (hwhole : v.WholeNumbers)
    (hfuel : v.chars.length ≤ fuel) : ReadsBack (value fuel depth) v := by
  induction v using Json.induct generalizing depth with
  | null => exact fun rest _ => value_of_scalar (by decide) (by decide) (by decide) fuel depth
  | bool b =>
    intro rest _
    cases b with
    | true => exact value_of_scalar (by decide) (by decide) (by decide) fuel depth
    | false => exact value_of_scalar (by decide) (by decide) (by decide) fuel depth
  | number n =>
    have hn := hwhole _ (List.mem_singleton_self _)
    cases n with
    | real x => exact absurd hn Bool.false_ne_true
    | int n => exact readsBack_int hn fuel depth
  | string s => exact readsBack_string s fuel depth
  | array items ih =>
    obtain _ | depth := depth
    · exact absurd hformed not_wellFormed_zero_array
    cases items with
    | nil => exact fun rest _ => rfl
    | cons v vs =>
      have hformed := wellFormed_array_iff.mp hformed
      have hwhole := wholeNumbers_array_iff.mp hwhole
      obtain ⟨hlength, hlengths⟩ := length_moreItems vs
      simp only [chars, List.length_cons, List.length_append] at hfuel
      have hread (u : Json) (hu : u ∈ v :: vs) (hfuel : u.chars.length ≤ fuel) :
          ReadsBack (value fuel depth) u :=
        ih u hu (hformed u hu) (hwhole u hu) hfuel
      have hv := hread v List.mem_cons_self (by omega)
      refine readsBack_array hv ?_ (hwhole v List.mem_cons_self) (by omega)
      intro u hu
      have := hlengths u hu
      exact hread u (List.mem_cons_of_mem v hu) (by omega)
  | object fields ih =>
    obtain _ | depth := depth
    · exact absurd hformed not_wellFormed_zero_object
    cases fields with
    | nil => exact fun rest _ => rfl
    | cons f fs =>
      obtain ⟨hkeys, hformed⟩ := wellFormed_object_iff.mp hformed
      have hwhole := wholeNumbers_object_iff.mp hwhole
      obtain ⟨hlength, hlengths⟩ := length_moreFields fs
      simp only [chars, List.length_cons, List.length_append] at hfuel
      have hread (g : String × Json) (hg : g ∈ f :: fs) (hfuel : g.2.chars.length ≤ fuel) :
          ReadsBack (value fuel depth) g.2 :=
        ih g hg (hformed g hg) (hwhole g hg) hfuel
      have hf := hread f List.mem_cons_self (by omega)
      refine readsBack_object hf ?_ hkeys (by omega)
      intro g hg
      have := hlengths g hg
      exact hread g (List.mem_cons_of_mem f hg) (by omega)

end Reader

theorem parse?_text {v : Json} (hformed : WellFormed maxDepth v) (hwhole : v.WholeNumbers) :
    parse? v.text = some v := by
  have hread := readsBack_value hformed hwhole le_rfl [] endsNumber_nil
  rw [List.append_nil] at hread
  simp only [parse?, text, String.toList_ofList, hread]
  rfl

end RestClient.Json
