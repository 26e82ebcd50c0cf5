import RestClient.Http.Response
import RestClient.Proofs.Json.Parsed
import RestClient.Proofs.Json.Values
import RestClient.Proofs.Text.Trim

namespace RestClient

open Json

theorem Text.isBlank_of_isFirstChar {c : Char} (h : isFirstChar c) : isBlank c = false := by
  unfold isFirstChar at h
  rcases Bool.or_eq_true_iff.mp h with hdigit | hsign
  · have hrange : 48 ≤ c.toNat ∧ c.toNat ≤ 57 := Char.isDigit_iff_toNat.mp hdigit
    simp only [isBlank, Bool.or_eq_false_iff, Bool.and_eq_false_iff, decide_eq_false_iff_not,
      beq_eq_false_iff_ne]
    omega
  · have hall : ['n', 't', 'f', '"', '[', '\x7b', '-'].all fun d => isBlank d = false := by decide
    exact of_decide_eq_true (List.all_eq_true.mp hall c (List.contains_iff_mem.mp hsign))

namespace Response

variable {v : Json}

/-- The text of a value is not blank. -/
theorem trim_text_isEmpty (h : v.WholeNumbers) : (Text.trim v.text).isEmpty = false := by
  obtain ⟨c, cs, hcs, hc⟩ := exists_chars_eq_cons h
  have htext : v.text.toList = c :: cs := by rw [text, String.toList_ofList, hcs]
  exact Text.trim_isEmpty_eq_false htext (Text.isBlank_of_isFirstChar hc)

theorem wellFormed_parseBody (text : String) : WellFormed maxDepth (parseBody text) := by
  unfold parseBody
  split
  · exact wellFormed_object_iff.mpr (by simp)
  · cases hparsed : parse? text with
    | some v => exact wellFormed_of_parse? hparsed
    | none => exact wellFormed_object_iff.mpr (by simp [wellFormed_string])

/-- A value whose numbers are whole is what its text reads as, if any text does. -/
theorem parseBody_text_iff (hwhole : v.WholeNumbers) :
    parseBody v.text = v ↔ WellFormed maxDepth v := by
  constructor
  · intro h
    rw [← h]
    exact wellFormed_parseBody v.text
  · intro hformed
    rw [parseBody, trim_text_isEmpty hwhole, parse?_text hformed hwhole]
    rfl

/-- Values read back from their text, and so do the bodies of all responses. -/
theorem body_round_trip :
    (∀ v : Json, v.DistinctKeys → v.depth ≤ 127 → v.WholeNumbers → parseBody v.text = v) ∧
      ∀ text, (parseBody text).WholeNumbers →
        parseBody (parseBody text).text = parseBody text := by
  constructor
  · intro v hkeys hdepth hwhole
    exact (parseBody_text_iff hwhole).mpr ⟨hkeys, hdepth⟩
  · intro text hwhole
    exact (parseBody_text_iff hwhole).mpr (wellFormed_parseBody text)

/-- Nothing is lost of names and texts full of signs that are escaped, of the least and the greatest
number, of empty containers and of as many containers as can nest. -/
theorem deep_body_round_trip :
    let deep : Json := (fun v => .array [v])^[126] (.bool false)
    let body : Json := .object
      [("\"\\/\x00\x1F\n", .array [.int (-9223372036854775808), .int 18446744073709551615, .null]),
        ("ключ \x7F", .object []), ("", .array []), ("deep", deep)]
    let plain := "<h1>\"502\"</h1>\r\n"
    parseBody body.text = body ∧
      parseBody (parseBody plain).text = parseBody plain ∧
      (parseBody plain).text = "\x7b\"raw_body\":\"<h1>\\\"502\\\"</h1>\\r\\n\"\x7d" := by
  intro deep body plain
  have hkeys : body.DistinctKeys := by decide +kernel
  have hdepth : body.depth ≤ 127 := by decide +kernel
  have hwhole : body.WholeNumbers := by decide +kernel
  have hplain : (parseBody plain).WholeNumbers := by decide +kernel
  obtain ⟨hvalues, hbodies⟩ := body_round_trip
  exact ⟨hvalues body hkeys hdepth hwhole, hbodies plain hplain, by decide +kernel⟩

end Response
end RestClient
