import RestClient.Binary64.Shortest

namespace RestClient

/-- Where the point would stand is counted in digits from the left end of the decimal's own. From
`leastPoint` to `greatestPoint` it is written there; beyond them an exponent is. -/
structure DecimalLayout where
  leastPoint : Int
  greatestPoint : Int
  positiveSign : List Char

namespace DecimalLayout

def zeros (n : Nat) : List Char := List.replicate n '0'

def exponentChars (l : DecimalLayout) (e : Int) : List Char :=
  'e' :: (if e < 0 then ['-'] else l.positiveSign) ++ Nat.toDigits 10 e.natAbs

/-- The text of a magnitude; it always shows a point or an exponent. -/
def write (l : DecimalLayout) (d : Decimal) : List Char :=
  let ds := Nat.toDigits 10 d.digits
  let point : Int := ds.length + d.exponent
  if d.digits = 0 then ['0', '.', '0']
  else if l.leastPoint ≤ point ∧ point ≤ l.greatestPoint then
    if d.exponent ≥ 0 then ds ++ zeros d.exponent.toNat ++ ['.', '0']
    else if point > 0 then ds.take point.toNat ++ '.' :: ds.drop point.toNat
    else ['0', '.'] ++ zeros (-point).toNat ++ ds
  else match ds with
    | [digit] => digit :: l.exponentChars (point - 1)
    | ds => ds.take 1 ++ '.' :: ds.drop 1 ++ l.exponentChars (point - 1)

end DecimalLayout

end RestClient
