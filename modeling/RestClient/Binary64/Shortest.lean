import RestClient.Binary64.Basic

namespace RestClient

/-- The number `digits * 10 ^ exponent`. -/
structure Decimal where
  digits : Nat
  exponent : Int
  deriving DecidableEq

namespace Decimal

/-- The same number without zeros at the end of its digits. -/
def normalize (d : Decimal) : Nat → Decimal
  | 0 => d
  | fuel + 1 =>
    if d.digits ≠ 0 ∧ d.digits % 10 = 0 then normalize ⟨d.digits / 10, d.exponent + 1⟩ fuel else d

end Decimal

namespace Binary64

/-- The reals that round to one number, as fractions over one denominator. -/
structure Interval where
  low : Nat
  value : Nat
  high : Nat
  den : Nat
  closed : Bool

def Interval.contains (i : Interval) (n : Nat) : Bool :=
  if i.closed then i.low ≤ n && n ≤ i.high else i.low < n && n < i.high

def Interval.scale (i : Interval) (num den : Nat) : Interval :=
  { i with low := i.low * num, value := i.value * num, high := i.high * num, den := i.den * den }

/-- The reals that round to `x`: half the way to each neighbour, and the ends where the mantissa is
even. Below a power of two the neighbour is nearer. -/
def interval (x : Binary64) : Interval :=
  let m := x.mantissa
  let e := x.exponent - 2
  let below := if m = Nat.pow 2 52 ∧ x.rank ≠ Nat.pow 2 52 then 1 else 2
  let unit : Interval := ⟨4 * m - below, 4 * m, 4 * m + 2, 1, m % 2 == 0⟩
  if e ≥ 0 then unit.scale (Nat.pow 2 e.toNat) 1 else unit.scale 1 (Nat.pow 2 (-e).toNat)

/-- The point of the grid `10 ^ exponent` nearest to the value, if one lies in the interval. -/
def Interval.hit? (i : Interval) (exponent : Int) : Option Decimal :=
  let i :=
    if exponent ≥ 0 then i.scale 1 (Nat.pow 10 exponent.toNat)
    else i.scale (Nat.pow 10 (-exponent).toNat) 1
  let below := i.value / i.den
  let above := below + 1
  let rest := i.value % i.den
  let nearest :=
    if 2 * rest < i.den ∨ (2 * rest = i.den ∧ below % 2 = 0) then [below, above] else [above, below]
  (nearest.find? fun k => i.contains (k * i.den)).map (⟨·, exponent⟩)

/-- The exponent of the first digit of `num / den`, which is not zero: at most `fuel` places after
the point are looked at. -/
def leadExponent (num den : Nat) : Nat → Int
  | 0 => 0
  | fuel + 1 =>
    if num < den then leadExponent (num * 10) den fuel - 1
    else (Nat.toDigits 10 (num / den)).length - 1

/-- The shortest decimal for the magnitude of `x`, and of those the nearest: the decimal grids are
tried from the coarsest on, and at most seventeen digits are ever needed. -/
def shortest (x : Binary64) : Decimal :=
  if x.rank = 0 then ⟨0, 0⟩
  else
    let i := x.interval
    let lead := leadExponent i.value i.den 400
    let hits := (List.range 17).findSome? fun n : Nat => i.hit? (lead - n)
    (hits.getD ⟨0, 0⟩).normalize 20

end Binary64
end RestClient
