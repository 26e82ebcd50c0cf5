import RestClient.Proofs.Catalog.Dates
import RestClient.Proofs.Catalog.Invocations
import RestClient.Proofs.Resource.OptionalArguments
import RestClient.Proofs.Text.Split

namespace RestClient

open Encoding (encodeComponent)

namespace Date

/-- A text of three fields with dashes between them, each of which is read as a number. -/
def Dashed (year short : List Char → Nat → Prop) (cs : List Char) (y m d : Nat) : Prop :=
  ∃ a b c, cs.splitOn '-' = [a, b, c] ∧ year a y ∧ short b m ∧ short c d

/-- A year that is not before the year zero. -/
inductive Unsigned : List Char → Nat → Prop
  | plain {ds : List Char} {n : Nat} (h : Numeral ds n) (hlength : ds.length ≤ 4) : Unsigned ds n
  | plus {ds : List Char} {n : Nat} (h : Numeral ds n) : Unsigned ('+' :: ds) n

/-- A number in decimal digits, after blanks and perhaps a plus sign. -/
def Number (cs : List Char) (n : Nat) : Prop :=
  Padded (fun text n => ∃ ds, (text = ds ∨ text = '+' :: ds) ∧ Numeral ds n) cs n

/-- A number in as many digits as are asked for. -/
structure Fixed (width : Nat) (cs : List Char) (n : Nat) : Prop extends Numeral cs n where
  length_eq : cs.length = width

/-- The signature `YYYY-MM-DD`. -/
def HasSignature (cs : List Char) : Prop := ∃ y m d, Dashed (Fixed 4) (Fixed 2) cs y m d

variable {cs : List Char} {y m d n : Nat}

theorem Dashed.mono {year short year' short' : List Char → Nat → Prop}
    (h : Dashed year short cs y m d) (hyear : ∀ {cs n}, year cs n → year' cs n)
    (hshort : ∀ {cs n}, short cs n → short' cs n) : Dashed year' short' cs y m d := by
  obtain ⟨a, b, c, hsplit, hy, hm, hd⟩ := h
  exact ⟨a, b, c, hsplit, hyear hy, hshort hm, hshort hd⟩

theorem Padded.mono {α β : Type} {p : List Char → α → Prop} {q : List Char → β → Prop} {a : α}
    {b : β} (h : Padded p cs a) (hmono : ∀ text, p text a → q text b) : Padded q cs b := by
  obtain ⟨blanks, text, hcs, hblanks, htext⟩ := h
  exact ⟨blanks, text, hcs, hblanks, hmono text htext⟩

theorem Padded.of_no_blank {α : Type} {p : List Char → α → Prop} {a : α} (h : Padded p cs a)
    (hblank : ∀ c ∈ cs, Text.isBlank c = false) : p cs a := by
  obtain ⟨blanks, text, rfl, hblanks, htext⟩ := h
  have hnone : blanks = [] := by
    refine List.eq_nil_iff_forall_not_mem.mpr fun c hc => ?_
    simpa [hblanks c hc] using hblank c (List.mem_append_left _ hc)
  rwa [hnone]

theorem Padded.of_self {α : Type} {p : List Char → α → Prop} {a : α} (h : p cs a) : Padded p cs a :=
  ⟨[], cs, rfl, by simp, h⟩

theorem dashed_iff {year short : List Char → Nat → Prop} :
    Dashed year short cs y m d ↔ ∃ a b c, cs = a ++ '-' :: (b ++ '-' :: c) ∧
      (∀ field ∈ [a, b, c], '-' ∉ field) ∧ year a y ∧ short b m ∧ short c d := by
  have hsplit : ∀ a b c : List Char, cs.splitOn '-' = [a, b, c] ↔
      cs = a ++ '-' :: (b ++ '-' :: c) ∧ ∀ field ∈ [a, b, c], '-' ∉ field := by
    intro a b c
    simp [Text.splitOn_eq_iff, List.intercalate_cons_cons]
  simp only [Dashed, hsplit, and_assoc]

theorem exists_unsigned {year : List Char} {n : Int} (h : Padded Year year n) (hdash : '-' ∉ year) :
    ∃ y : Nat, n = y ∧ Padded Unsigned year y := by
  obtain ⟨blanks, text, rfl, hblanks, htext⟩ := h
  cases htext with
  | plain h hlength => exact ⟨_, rfl, blanks, _, rfl, hblanks, .plain h hlength⟩
  | plus h => exact ⟨_, rfl, blanks, _, rfl, hblanks, .plus h⟩
  | minus h => simp at hdash

theorem year_of_unsigned {text : List Char} (h : Unsigned text n) : Year text n := by
  cases h with
  | plain h hlength => exact .plain h hlength
  | plus h => exact .plus h

/-- Two dashes are those between the fields, so that none is left for a sign. -/
theorem spells_iff {date : Date} : cs.count '-' = 2 ∧ Spells cs date ↔
    ∃ y : Nat, date.year = y ∧
      Dashed (Padded Unsigned) (Padded Short) cs y date.month date.day := by
  constructor
  · rintro ⟨hcount, year, month, day, rfl, hyear, hmonth, hday⟩
    have hnone : year.count '-' + month.count '-' + day.count '-' = 0 := by
      simp only [List.count_append, List.count_cons_self] at hcount
      omega
    have hfields : ∀ field ∈ [year, month, day], '-' ∉ field := by
      simp only [List.forall_mem_cons, ← List.count_eq_zero]
      exact ⟨by omega, by omega, by omega, by simp⟩
    obtain ⟨y, hy, hyear⟩ := exists_unsigned hyear (hfields year List.mem_cons_self)
    exact ⟨y, hy, dashed_iff.mpr ⟨year, month, day, rfl, hfields, hyear, hmonth, hday⟩⟩
  · rintro ⟨y, hy, h⟩
    obtain ⟨year, month, day, rfl, hfields, hyear, hmonth, hday⟩ := dashed_iff.mp h
    refine ⟨?_, year, month, day, rfl, ?_, hmonth, hday⟩
    · simp only [List.forall_mem_cons, ← List.count_eq_zero] at hfields
      simp only [List.count_append, List.count_cons_self]
      omega
    · rw [hy]
      exact hyear.mono fun _ => year_of_unsigned

theorem number_of_unsigned (h : Padded Unsigned cs n) : Number cs n := by
  refine h.mono fun text htext => ?_
  cases htext with
  | plain h => exact ⟨text, .inl rfl, h⟩
  | @plus ds _ h => exact ⟨ds, .inr rfl, h⟩

theorem number_of_short (h : Padded Short cs n) : Number cs n :=
  h.mono fun text htext => ⟨text, .inl rfl, htext.toNumeral⟩

theorem unsigned_of_fixed (h : Fixed 4 cs n) : Padded Unsigned cs n :=
  .of_self (.plain h.toNumeral h.length_eq.le)

theorem short_of_fixed (h : Fixed 2 cs n) : Padded Short cs n :=
  .of_self ⟨h.toNumeral, h.length_eq.le⟩

theorem le_maxYear_of_fixed (h : Dashed (Fixed 4) (Fixed 2) cs y m d) : (y : Int) ≤ maxYear := by
  obtain ⟨year, -, -, -, hyear, -⟩ := h
  have hlt := hyear.lt
  rw [hyear.length_eq] at hlt
  rw [maxYear]
  omega

/-- A character that a date with its signature can hold. -/
theorem digit_or_dash_of_hasSignature (h : HasSignature cs) : ∀ c ∈ cs, c.isDigit ∨ c = '-' := by
  obtain ⟨y, m, d, h⟩ := h
  obtain ⟨year, month, day, rfl, -, hyear, hmonth, hday⟩ := dashed_iff.mp h
  intro c hc
  simp only [List.mem_append, List.mem_cons] at hc
  rcases hc with hc | rfl | hc | rfl | hc
  · exact .inl (hyear.digits c hc)
  · exact .inr rfl
  · exact .inl (hmonth.digits c hc)
  · exact .inr rfl
  · exact .inl (hday.digits c hc)

theorem length_of_hasSignature (h : HasSignature cs) : cs.length = 10 := by
  obtain ⟨y, m, d, h⟩ := h
  obtain ⟨year, month, day, rfl, -, hyear, hmonth, hday⟩ := dashed_iff.mp h
  simp [hyear.length_eq, hmonth.length_eq, hday.length_eq]

/-- Without blanks and signs the fields have ten characters only in their full width. -/
theorem hasSignature_iff (h : Dashed (Padded Unsigned) (Padded Short) cs y m d) :
    HasSignature cs ↔ cs.length = 10 ∧ '+' ∉ cs ∧ ∀ c ∈ cs, Text.isBlank c = false := by
  constructor
  · intro hsignature
    have hchars := digit_or_dash_of_hasSignature hsignature
    refine ⟨length_of_hasSignature hsignature, fun hplus => ?_, fun c hc => ?_⟩
    · simpa using hchars '+' hplus
    · rcases hchars c hc with hdigit | rfl
      · exact isBlank_of_isDigit hdigit
      · decide
  · rintro ⟨hlength, hplus, hblank⟩
    obtain ⟨year, month, day, rfl, hfields, hyear, hmonth, hday⟩ := dashed_iff.mp h
    simp only [List.forall_mem_append, List.forall_mem_cons] at hblank
    obtain ⟨hyearBlank, -, hmonthBlank, -, hdayBlank⟩ := hblank
    have hm := hmonth.of_no_blank hmonthBlank
    have hd := hday.of_no_blank hdayBlank
    simp only [List.length_append, List.length_cons] at hlength
    cases hyear.of_no_blank hyearBlank with
    | plus => simp at hplus
    | plain hy hyearLength =>
      have hmonthLength := hm.length_le
      have hdayLength := hd.length_le
      exact ⟨y, m, d, dashed_iff.mpr ⟨year, month, day, rfl, hfields, ⟨hy, by omega⟩,
        ⟨hm.toNumeral, by omega⟩, ⟨hd.toNumeral, by omega⟩⟩⟩

end Date

namespace Orders

open Date (Dashed Number Fixed HasSignature Padded Unsigned Short OnCalendar)

variable {id date : String}

/-- The dates that are accepted: dashes between a year, a month and a day of the calendar. -/
theorem checkDispatchDate_eq_ok_iff :
    checkDispatchDate id date = .ok () ↔ id ≠ "" ∧ ∃ y m d : Nat, (y : Int) ≤ Date.maxYear ∧
      Dashed (Padded Unsigned) (Padded Short) date.toList y m d ∧ OnCalendar y m d := by
  have hread : date.toList.count '-' = 2 ∧ (Date.parse? date).isSome ↔
      ∃ y m d : Nat, (y : Int) ≤ Date.maxYear ∧
        Dashed (Padded Unsigned) (Padded Short) date.toList y m d ∧ OnCalendar y m d := by
    simp only [Option.isSome_iff_exists, Date.parse?_eq_some_iff, Date.isReal_iff]
    constructor
    · rintro ⟨hcount, ⟨_, m, d⟩, hspells, -, hmax, hcalendar⟩
      obtain ⟨y, rfl, hdashed⟩ := Date.spells_iff.mp ⟨hcount, hspells⟩
      exact ⟨y, m, d, hmax, hdashed, hcalendar⟩
    · rintro ⟨y, m, d, hmax, hdashed, hcalendar⟩
      have hmin : Date.minYear ≤ (y : Int) := by
        rw [Date.minYear]
        omega
      let read : Date := ⟨y, m, d⟩
      have hspells : date.toList.count '-' = 2 ∧ Date.Spells date.toList read :=
        Date.spells_iff.mpr ⟨y, rfl, hdashed⟩
      exact ⟨hspells.1, read, hspells.2, hmin, hmax, hcalendar⟩
  rw [← hread, checkDispatchDate]
  by_cases hid : id = ""
  · simp [hid]
  by_cases hdate : date = ""
  · simp [hdate]
  simp [hid, hdate, Option.isSome_iff_ne_none]

theorem exists_refusedDate (h : checkDispatchDate id date ≠ .ok ()) :
    ∃ message, checkDispatchDate id date =
      .error (.invalidArgument "update_dispatch_date" message) := by
  rw [checkDispatchDate] at h ⊢
  split
  · exact ⟨_, rfl⟩
  split
  · simp_all
  · exact ⟨_, rfl⟩

/-- The operation that changes an order. -/
def updateOperation : Operation where
  name := "update"
  basePath := path
  descriptor := { method := .patch, path := some (Path.slot "id"), urlParams := ["id"] }
  template := ⟨[.literal "/users/me/orders/", .placeholder "id"]⟩

theorem declares_updateOperation : plan.Declares updateOperation := by decide +kernel

/-- The request for another dispatch date. -/
def dispatchRequest (id date : String) : Request where
  method := .patch
  path := "/users/me/orders/" ++ encodeComponent id
  body := some [("order[dispatch_date]", .string date)]
  bodyType := some .form

/-- The arguments of the change, which are both given. -/
def dispatchSlots (id date : String) : List (String × Option String) :=
  [("id", some id), (dispatchDateField, some date)]

theorem nodup_dispatchSlots (id date : String) : ((dispatchSlots id date).map Prod.fst).Nodup := by
  have hnames : (dispatchSlots id date).map Prod.fst = ["id", dispatchDateField] := rfl
  rw [hnames]
  decide

theorem value?_id (id date : String) :
    (textArguments (dispatchSlots id date)).value? "id" = some (.string id) := by
  have hslot : ("id", some id) ∈ dispatchSlots id date := by simp [dispatchSlots]
  exact value?_textArguments (nodup_dispatchSlots id date) hslot

theorem request_updateOperation (id date : String) :
    updateOperation.request (textArguments (dispatchSlots id date)) = dispatchRequest id date := by
  have hpath : updateOperation.template.filled
      (fun name => (Operation.urlText? (textArguments (dispatchSlots id date)) name).getD "") =
        (dispatchRequest id date).path := by
    simp [updateOperation, dispatchRequest,
      Operation.getD_urlText?_of_string (value?_id id date)]
  rw [Operation.request, hpath]
  rfl

theorem prepare_updateDispatchDate {r : Resource} (hr : plan.build = .ok r)
    (h : checkDispatchDate id date = .ok ()) :
    (Invocation.updateDispatchDate id date).prepare r = .ok (dispatchRequest id date) := by
  have hcall : (Invocation.updateDispatchDate id date).call =
      .ok ⟨updateOperation.name, textArguments (dispatchSlots id date)⟩ := by
    rw [Invocation.call, updateDispatchDate, h]
    rfl
  have hgiven : ∀ name ∈ updateOperation.descriptor.urlParams,
      ¬ (textArguments (dispatchSlots id date)).Lacks name := by
    have hparams : updateOperation.descriptor.urlParams = ["id"] := rfl
    simpa [hparams, Operation.lacks_iff_of_string (value?_id id date)] using
      (checkDispatchDate_eq_ok_iff.mp h).1
  rw [Invocation.prepare_of_call hr declares_updateOperation hcall, Operation.prepare_of_given
    (Operation.bound_of_compile declares_updateOperation.2) hgiven, request_updateOperation]

theorem prepare_of_refusedDate {r : Resource} {e : PreconditionError}
    (h : checkDispatchDate id date = .error e) :
    (Invocation.updateDispatchDate id date).prepare r = .error e := by
  rw [Invocation.prepare, Invocation.call, updateDispatchDate, h]
  rfl

theorem exists_prepare_iff {r : Resource} (hr : plan.build = .ok r) :
    (∃ q, (Invocation.updateDispatchDate id date).prepare r = .ok q) ↔
      checkDispatchDate id date = .ok () := by
  refine ⟨fun ⟨q, hq⟩ => ?_, fun h => ⟨_, prepare_updateDispatchDate hr h⟩⟩
  by_contra h
  obtain ⟨message, hmessage⟩ := exists_refusedDate h
  cases (prepare_of_refusedDate hmessage).symm.trans hq

/-- The fields of a date that is accepted make a day of the calendar, and the date is sent as it was
given; each such day is accepted in its full width; and what is not accepted is not sent. -/
theorem dispatch_date_calendar :
    ∃ r, plan.build = .ok r ∧ ∀ id date : String,
      (checkDispatchDate id date = .ok () →
        (∃ y m d : Nat, Dashed Number Number date.toList y m d ∧ OnCalendar y m d) ∧
        ∃ q, (Invocation.updateDispatchDate id date).prepare r = .ok q ∧ q.method = .patch ∧
          q.path = "/users/me/orders/" ++ encodeComponent id ∧ q.query = [] ∧
          q.bodyType = some .form ∧ q.formFields = [("order[dispatch_date]", date)]) ∧
      (id ≠ "" → ∀ y m d : Nat, Dashed (Fixed 4) (Fixed 2) date.toList y m d →
        OnCalendar y m d → checkDispatchDate id date = .ok ()) ∧
      (checkDispatchDate id date ≠ .ok () → ∃ message,
        (Invocation.updateDispatchDate id date).Refused r
          (.invalidArgument "update_dispatch_date" message)) := by
  obtain ⟨r, hr⟩ := Catalog.exists_build (p := plan) (by simp [Catalog.plans])
  refine ⟨r, hr, fun id date => ⟨fun h => ⟨?_, ?_⟩, fun hid y m d hdashed hcalendar => ?_,
    fun h => ?_⟩⟩
  · obtain ⟨-, y, m, d, -, hdashed, hcalendar⟩ := checkDispatchDate_eq_ok_iff.mp h
    exact ⟨y, m, d, hdashed.mono Date.number_of_unsigned Date.number_of_short, hcalendar⟩
  · exact ⟨_, prepare_updateDispatchDate hr h, rfl, rfl, rfl, rfl, rfl⟩
  · exact checkDispatchDate_eq_ok_iff.mpr ⟨hid, y, m, d, Date.le_maxYear_of_fixed hdashed,
      hdashed.mono Date.unsigned_of_fixed Date.short_of_fixed, hcalendar⟩
  · obtain ⟨message, hmessage⟩ := exists_refusedDate h
    exact ⟨message, Invocation.refused_of_prepare (prepare_of_refusedDate hmessage)⟩

/-- The leap day of a century that has one, written loosely and then in full; other centuries have
none. -/
theorem leap_day_calendar :
    ∃ r q, plan.build = .ok r ∧
      (Invocation.updateDispatchDate "a/b" " +2000- 2-29").prepare r = .ok q ∧
      q.path = "/users/me/orders/a%2Fb" ∧
      q.formFields = [("order[dispatch_date]", " +2000- 2-29")] ∧
      checkDispatchDate "a/b" "2000-02-29" = .ok () ∧
      ∃ message, (Invocation.updateDispatchDate "a/b" "1900-02-29").Refused r
        (.invalidArgument "update_dispatch_date" message) := by
  obtain ⟨r, hr, hdates⟩ := dispatch_date_calendar
  obtain ⟨-, q, hq, -, hpath, -, -, hform⟩ := (hdates "a/b" " +2000- 2-29").1 (by decide +kernel)
  have hdashed : Dashed (Fixed 4) (Fixed 2) "2000-02-29".toList 2000 2 29 :=
    ⟨"2000".toList, "02".toList, "29".toList, by decide,
      ⟨⟨by decide, List.all_eq_true.mp rfl, rfl⟩, rfl⟩,
      ⟨⟨by decide, List.all_eq_true.mp rfl, rfl⟩, rfl⟩,
      ⟨⟨by decide, List.all_eq_true.mp rfl, rfl⟩, rfl⟩⟩
  have hcalendar : OnCalendar 2000 2 29 :=
    ⟨by decide, by decide, by decide, 28, rfl, .inr ⟨rfl, rfl, by decide, by decide⟩⟩
  have haccepted := (hdates "a/b" "2000-02-29").2.1 (by decide) 2000 2 29 hdashed hcalendar
  have hrefused := (hdates "a/b" "1900-02-29").2.2 (by decide +kernel)
  exact ⟨r, q, hr, hq, hpath.trans (by decide +kernel), hform, haccepted, hrefused⟩

/-- A date is sent when its fields make a day of the calendar, and as it was given. So it has its
signature just when it is written in ten characters without blanks and a plus sign. -/
theorem dispatch_date_signature {r : Resource}
    (hr : plan.build = .ok r) (id date : String) :
    ((∃ q, (Invocation.updateDispatchDate id date).prepare r = .ok q) ↔
      id ≠ "" ∧ ∃ y m d : Nat, (y : Int) ≤ Date.maxYear ∧
        Dashed (Padded Unsigned) (Padded Short) date.toList y m d ∧ OnCalendar y m d) ∧
    ∀ q, (Invocation.updateDispatchDate id date).prepare r = .ok q →
      q.formFields = [("order[dispatch_date]", date)] ∧
      (HasSignature date.toList ↔ date.length = 10 ∧ '+' ∉ date.toList ∧
        ∀ c ∈ date.toList, Text.isBlank c = false) := by
  refine ⟨(exists_prepare_iff hr).trans checkDispatchDate_eq_ok_iff, fun q hq => ?_⟩
  have haccepted := (exists_prepare_iff hr).mp ⟨q, hq⟩
  obtain rfl := Except.ok.inj ((prepare_updateDispatchDate hr haccepted).symm.trans hq)
  obtain ⟨-, y, m, d, -, hdashed, -⟩ := checkDispatchDate_eq_ok_iff.mp haccepted
  exact ⟨rfl, Date.hasSignature_iff hdashed⟩

theorem leap_day_signature :
    ∃ r q, plan.build = .ok r ∧
      (Invocation.updateDispatchDate "1" "2024-02-29").prepare r = .ok q ∧
      q.formFields = [("order[dispatch_date]", "2024-02-29")] ∧
      HasSignature "2024-02-29".toList := by
  obtain ⟨r, hr⟩ := Catalog.exists_build (p := plan) (by simp [Catalog.plans])
  obtain ⟨hsent, hwritten⟩ :=
    dispatch_date_signature hr "1" "2024-02-29"
  obtain ⟨q, hq⟩ := hsent.mpr (checkDispatchDate_eq_ok_iff.mp (by decide +kernel))
  obtain ⟨hform, hsignature⟩ := hwritten q hq
  have hblank : "2024-02-29".toList.all (!Text.isBlank ·) := by decide +kernel
  have hsigned : HasSignature "2024-02-29".toList :=
    hsignature.mpr ⟨by decide, by decide, by simpa using hblank⟩
  exact ⟨r, q, hr, hq, hform, hsigned⟩

/-- A month and a day of one digit each are accepted and sent. -/
theorem short_fields_sent :
    let c : Config := ⟨⟨"http", "a.test"⟩, none, none⟩
    let steps : List Session.Step := [.build 0 plan, .call 0 (.updateDispatchDate "1" "2024-3-9")]
    let t := Transport.canned BaseUrl.testAuthorities none
    checkDispatchDate "1" "2024-3-9" = .ok () ∧ ¬ HasSignature "2024-3-9".toList ∧
      ((Session.ofConfig c).run (steps.map (t, ·))).2.map (·.sent.map (·.body)) =
        [[], [some "order%5Bdispatch_date%5D=2024-3-9"]] := by
  intro c steps t
  exact ⟨by decide +kernel, fun h => absurd (Date.length_of_hasSignature h) (by decide),
    by decide +kernel⟩

end Orders
end RestClient
