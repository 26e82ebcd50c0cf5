import RestClient.Proofs.Config.UrlParts
import RestClient.Proofs.Encoding.Percent
import RestClient.Proofs.Text.Split

namespace RestClient.Encoding

open UrlParts (cut cut_append)

/-- Reads a field, whose name ends at the first equals sign. -/
def readField? (decode : List Char → Option String) (piece : List Char) :
    Option (String × String) := do
  let (name, value) := cut '=' piece
  return (← decode name, ← decode (value.getD []))

/-- Reads the fields between the ampersands; where nothing stands there is no field. -/
def readFields? (decode : List Char → Option String) (cs : List Char) : Option (Entries String) :=
  ((Text.splitAtEach (· == '&') cs).filter (!·.isEmpty)).mapM (readField? decode)

/-- The text of a name or value in a form body, where a plus sign is a space. -/
def decodeFormText? (cs : List Char) : Option String :=
  decodeComponent? (cs.map fun c => if c = '+' then ' ' else c)

/-- The fields of a form body. -/
def readForm? (body : String) : Option (Entries String) := readFields? decodeFormText? body.toList

/-- Each text can be decoded, and stands between the separators without holding one. -/
structure Legible (encode : String → String) (decode : List Char → Option String) : Prop where
  decode_encode : ∀ s, decode (encode s).toList = some s
  ampersand : ∀ s, '&' ∉ (encode s).toList
  equals : ∀ s, '=' ∉ (encode s).toList

variable {encode : String → String} {decode : List Char → Option String}

/-- A field as it is written. -/
def fieldChars (encode : String → String) (field : String × String) : List Char :=
  (encode field.1).toList ++ '=' :: (encode field.2).toList

theorem toList_joinFields (encode : String → String) (fields : Entries String) :
    (joinFields encode fields).toList = ['&'].intercalate (fields.map (fieldChars encode)) := by
  rw [joinFields, String.toList_intercalate, List.map_map]
  congr 2
  funext field
  simp [fieldChars]

theorem readField?_fieldChars (h : Legible encode decode) (field : String × String) :
    readField? decode (fieldChars encode field) = some field := by
  rw [readField?, fieldChars, cut_append (h.equals _)]
  simp [h.decode_encode]

theorem splitAtEach_joinFields (h : Legible encode decode) {fields : Entries String}
    (hne : fields ≠ []) :
    Text.splitAtEach (· == '&') (joinFields encode fields).toList =
      fields.map (fieldChars encode) := by
  rw [toList_joinFields, Text.splitAtEach_eq_splitOnP, ← List.splitOn_eq_splitOnP]
  apply List.splitOn_intercalate
  · intro piece hpiece
    obtain ⟨field, -, rfl⟩ := List.mem_map.mp hpiece
    simp [fieldChars, h.ampersand]
  · simpa using hne

theorem mapM_readField? (h : Legible encode decode) (fields : Entries String) :
    (fields.map (fieldChars encode)).mapM (readField? decode) = some fields := by
  induction fields with
  | nil => rfl
  | cons field fields ih =>
    rw [List.map_cons, List.mapM_cons, readField?_fieldChars h, ih]
    rfl

theorem readFields?_joinFields (h : Legible encode decode) (fields : Entries String) :
    readFields? decode (joinFields encode fields).toList = some fields := by
  -- No fields are the empty text, which is one piece all the same.
  by_cases hne : fields = []
  · subst hne
    rfl
  have hkept : (fields.map (fieldChars encode)).filter (!·.isEmpty) =
      fields.map (fieldChars encode) := by
    rw [List.filter_eq_self, List.forall_mem_map]
    intro field _
    simp [fieldChars]
  rw [readFields?, splitAtEach_joinFields h hne, hkept, mapM_readField? h]

theorem not_mem_encodeFormText {c : Char} (hsafe : isFormSafe c = false)
    (hcomponent : isComponentChar c = false) (hplus : c ≠ '+') (s : String) :
    c ∉ (encodeFormText s).toList := by
  rw [encodeFormText, String.toList_ofList]
  intro hc
  obtain ⟨d, -, hd⟩ := List.mem_flatMap.mp hc
  split at hd
  case isTrue hkept =>
    rw [List.mem_singleton.mp hd, hkept] at hsafe
    cases hsafe
  case isFalse =>
    split at hd
    · exact hplus (List.mem_singleton.mp hd)
    · obtain ⟨b, -, hb⟩ := List.mem_flatMap.mp hd
      rw [isComponentChar_of_mem_percentByte hb] at hcomponent
      cases hcomponent

/-- With spaces for its plus signs, a form text is percent-encoded. -/
theorem map_plus_encodeFormText (s : String) :
    ((encodeFormText s).toList.map fun c => if c = '+' then ' ' else c) =
      percentEncode (fun c => isFormSafe c || c == ' ') s.toList := by
  rw [encodeFormText, String.toList_ofList, percentEncode, List.map_flatMap]
  congr 1
  funext c
  by_cases hsafe : isFormSafe c
  · have hplus : c ≠ '+' := by
      rintro rfl
      exact absurd hsafe (by decide)
    simp [hsafe, hplus]
  by_cases hspace : c = ' '
  · simp [hspace, show isFormSafe ' ' = false by decide]
  · have hcoded : ∀ d ∈ percentChar c, (if d = '+' then ' ' else d) = d := by
      intro d hd
      obtain ⟨b, -, hb⟩ := List.mem_flatMap.mp hd
      have hplus : d ≠ '+' := by
        rintro rfl
        exact absurd (isComponentChar_of_mem_percentByte hb) (by decide)
      exact if_neg hplus
    simp [hsafe, hspace, List.map_congr_left hcoded]

theorem legible_form : Legible encodeFormText decodeFormText? where
  decode_encode s := by
    rw [decodeFormText?, map_plus_encodeFormText, decodeComponent?_percentEncode (by decide)]
  ampersand := not_mem_encodeFormText (by decide) (by decide) (by decide)
  equals := not_mem_encodeFormText (by decide) (by decide) (by decide)

theorem readForm?_formText (fields : Entries String) : readForm? (formText fields) = some fields :=
  readFields?_joinFields legible_form fields

/-- One field without a name and a value is not the same as no field. -/
example : formText [("", "")] = "=" ∧ readForm? "=" = some [("", "")] ∧ readForm? "" = some [] := by
  decide +kernel

end RestClient.Encoding
