namespace RestClient.Text

/-- The Unicode property White_Space. -/
def isBlank (c : Char) : Bool :=
  let n := c.toNat
  (0x9 ≤ n && n ≤ 0xD) || n == 0x20 || n == 0x85 || n == 0xA0 || n == 0x1680 ||
    (0x2000 ≤ n && n ≤ 0x200A) || n == 0x2028 || n == 0x2029 || n == 0x202F || n == 0x205F ||
    n == 0x3000

/-- Drops the longest suffix whose elements all satisfy `p`. -/
def dropSuffixWhile {α : Type} (p : α → Bool) (l : List α) : List α :=
  (l.reverse.dropWhile p).reverse

theorem dropSuffixWhile_prefix {α : Type} (p : α → Bool) (l : List α) :
    dropSuffixWhile p l <+: l := by
  rw [dropSuffixWhile, ← List.reverse_suffix, List.reverse_reverse]
  exact List.dropWhile_suffix p

def trimChars (p : Char → Bool) (cs : List Char) : List Char :=
  dropSuffixWhile p (cs.dropWhile p)

/-- The text without the blanks around it. -/
def trim (s : String) : String :=
  String.ofList (trimChars isBlank s.toList)

/-- The text without the slashes at its end. -/
def dropTrailingSlashes (s : String) : String :=
  String.ofList (dropSuffixWhile (· == '/') s.toList)

/-- The pieces between the characters that satisfy `p`; there is one more of them than of those. -/
def splitAtEach (p : Char → Bool) : List Char → List (List Char)
  | [] => [[]]
  | c :: cs =>
    if p c then [] :: splitAtEach p cs
    else match splitAtEach p cs with
      | [] => [[c]]
      | piece :: pieces => (c :: piece) :: pieces

end RestClient.Text
