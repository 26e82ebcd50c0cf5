import RestClient.Encoding
import RestClient.Json.Parser

namespace RestClient.Encoding

open Json.Reader (hexValue?)

/-- A character that stands in an encoded text. -/
def isComponentChar (c : Char) : Bool := isUnreserved c || c == '%'

/-- The bytes of an encoded text: a percent sign and two hexadecimal digits are one byte, and any
other character stands for its own bytes. -/
def decodeBytes : List Char → List UInt8
  | '%' :: a :: b :: cs =>
    match hexValue? a, hexValue? b with
    | some high, some low => UInt8.ofNat (16 * high + low) :: decodeBytes cs
    | _, _ => String.utf8EncodeChar '%' ++ decodeBytes (a :: b :: cs)
  | c :: cs => String.utf8EncodeChar c ++ decodeBytes cs
  | [] => []

/-- The text that an encoded text stands for, if its bytes are UTF-8. -/
def decodeComponent? (cs : List Char) : Option String :=
  (decodeBytes cs).toByteArray.utf8Decode?.map fun chars => String.ofList chars.toList

/-- A character with a property is in no list of characters without it. -/
theorem contains_eq_false_of_property {p : Char → Bool} {l : List Char} (hl : l.all (!p ·))
    {c : Char} (h : p c) : l.contains c = false := by
  rw [Bool.eq_false_iff]
  intro hc
  have hnot := List.all_eq_true.mp hl c (List.contains_iff_mem.mp hc)
  rw [h] at hnot
  cases hnot

theorem isComponentChar_upperHexDigit {n : Nat} (h : n < 16) :
    isComponentChar (upperHexDigit n) := by
  have hall : ∀ n < 16, isComponentChar (upperHexDigit n) := by decide
  exact hall n h

theorem hexValue?_upperHexDigit {n : Nat} (h : n < 16) : hexValue? (upperHexDigit n) = some n := by
  have hall : ∀ n < 16, hexValue? (upperHexDigit n) = some n := by decide
  exact hall n h

theorem isComponentChar_of_mem_percentByte {b : UInt8} {c : Char} (h : c ∈ percentByte b) :
    isComponentChar c := by
  have hb : b.toNat < 256 := b.toNat_lt
  have hhigh : isComponentChar (upperHexDigit (b.toNat / 16)) :=
    isComponentChar_upperHexDigit (by omega)
  have hlow : isComponentChar (upperHexDigit (b.toNat % 16)) :=
    isComponentChar_upperHexDigit (by omega)
  simp only [percentByte, List.mem_cons, List.not_mem_nil, or_false] at h
  rcases h with rfl | rfl | rfl
  · decide
  · exact hhigh
  · exact hlow

theorem isComponentChar_of_mem_encodeComponent {s : String} {c : Char}
    (h : c ∈ (encodeComponent s).toList) : isComponentChar c := by
  rw [encodeComponent, String.toList_ofList, percentEncode, List.mem_flatMap] at h
  obtain ⟨d, -, hc⟩ := h
  split at hc
  case isTrue hd =>
    rw [List.mem_singleton.mp hc, isComponentChar, hd, Bool.true_or]
  case isFalse =>
    obtain ⟨b, -, hb⟩ := List.mem_flatMap.mp hc
    exact isComponentChar_of_mem_percentByte hb

theorem decodeBytes_percentByte (b : UInt8) (rest : List Char) :
    decodeBytes (percentByte b ++ rest) = b :: decodeBytes rest := by
  have hb : b.toNat < 256 := b.toNat_lt
  have hhigh := hexValue?_upperHexDigit (n := b.toNat / 16) (by omega)
  have hlow := hexValue?_upperHexDigit (n := b.toNat % 16) (by omega)
  have hbyte : 16 * (b.toNat / 16) + b.toNat % 16 = b.toNat := by omega
  simp only [percentByte, List.cons_append, List.nil_append, decodeBytes, hhigh, hlow, hbyte,
    UInt8.ofNat_toNat]

theorem decodeBytes_percentBytes (bs : List UInt8) (rest : List Char) :
    decodeBytes (bs.flatMap percentByte ++ rest) = bs ++ decodeBytes rest := by
  induction bs with
  | nil => rfl
  | cons b bs ih =>
    rw [List.flatMap_cons, List.append_assoc, decodeBytes_percentByte, ih, List.cons_append]

theorem decodeBytes_cons {c : Char} (h : c ≠ '%') (cs : List Char) :
    decodeBytes (c :: cs) = String.utf8EncodeChar c ++ decodeBytes cs := by
  rw [decodeBytes]
  exact fun _ _ _ hc => absurd hc h

/-- Decoding undoes any encoding that does not keep the percent sign. -/
theorem decodeBytes_percentEncode {keep : Char → Bool} (h : keep '%' = false) (cs : List Char) :
    decodeBytes (percentEncode keep cs) = cs.flatMap String.utf8EncodeChar := by
  induction cs with
  | nil => rfl
  | cons c cs ih =>
    rw [percentEncode, List.flatMap_cons, List.flatMap_cons, ← percentEncode]
    split
    case isTrue hc =>
      have hne : c ≠ '%' := by
        rintro rfl
        rw [h] at hc
        cases hc
      rw [List.singleton_append, decodeBytes_cons hne, ih]
    case isFalse => rw [percentChar, decodeBytes_percentBytes, ih]

theorem decodeComponent?_percentEncode {keep : Char → Bool} (h : keep '%' = false) (s : String) :
    decodeComponent? (percentEncode keep s.toList) = some s := by
  have hbytes : (decodeBytes (percentEncode keep s.toList)).toByteArray = s.toList.utf8Encode := by
    rw [decodeBytes_percentEncode h]
    rfl
  rw [decodeComponent?, hbytes, List.utf8Decode?_utf8Encode, Option.map_some]
  simp only [String.ofList_toList]

theorem decodeComponent?_encodeComponent (s : String) :
    decodeComponent? (encodeComponent s).toList = some s := by
  rw [encodeComponent, String.toList_ofList, decodeComponent?_percentEncode (by decide)]

theorem encodeComponent_injective : Function.Injective encodeComponent := by
  intro s s' h
  have hs := decodeComponent?_encodeComponent s
  rw [h, decodeComponent?_encodeComponent] at hs
  exact (Option.some.inj hs).symm

def isQueryChar (c : Char) : Bool := isComponentChar c || c == '&' || c == '='

theorem mem_of_mem_intercalate {α : Type} {separator : List α} {pieces : List (List α)} {a : α}
    (h : a ∈ separator.intercalate pieces) : a ∈ separator ∨ ∃ piece ∈ pieces, a ∈ piece := by
  induction pieces with
  | nil => cases h
  | cons piece pieces ih =>
    by_cases hne : pieces = []
    · rw [hne, List.intercalate_singleton] at h
      exact .inr ⟨piece, List.mem_cons_self, h⟩
    rw [List.intercalate_cons_of_ne_nil hne, List.mem_append, List.mem_append] at h
    rcases h with (h | h) | h
    · exact .inr ⟨piece, List.mem_cons_self, h⟩
    · exact .inl h
    · rcases ih h with h | ⟨piece', hpiece', h⟩
      · exact .inl h
      · exact .inr ⟨piece', List.mem_cons_of_mem piece hpiece', h⟩

theorem isQueryChar_of_mem_queryText {fields : Entries String} {c : Char}
    (h : c ∈ (queryText fields).toList) : isQueryChar c := by
  rw [queryText, joinFields, String.toList_intercalate, List.map_map] at h
  rcases mem_of_mem_intercalate h with h | ⟨field, hfield, h⟩
  · obtain rfl : c = '&' := by simpa using h
    decide
  obtain ⟨⟨key, value⟩, -, rfl⟩ := List.mem_map.mp hfield
  simp only [Function.comp_apply, String.toList_append, List.mem_append] at h
  rcases h with (h | h) | h
  · rw [isQueryChar, isComponentChar_of_mem_encodeComponent h]
    rfl
  · obtain rfl : c = '=' := by simpa using h
    decide
  · rw [isQueryChar, isComponentChar_of_mem_encodeComponent h]
    rfl

end RestClient.Encoding
