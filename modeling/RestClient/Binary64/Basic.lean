namespace RestClient

/-- The rank after the largest magnitude: 2047 binades of 2 ^ 52 numbers lie before it. -/
def Binary64.rankBound : Nat := 0x7FF * Nat.pow 2 52

/-- A finite binary floating-point number of 64 bits: its sign, and the rank of its magnitude among
the non-negative finite numbers, zero being the first. -/
structure Binary64 where
  negative : Bool
  rank : Nat
  rank_lt : rank < Binary64.rankBound
  deriving DecidableEq

namespace Binary64

def zero (negative : Bool) : Binary64 := ⟨negative, 0, by decide⟩

/-- The magnitude is `mantissa * 2 ^ exponent`. -/
def mantissa (x : Binary64) : Nat :=
  if x.rank < Nat.pow 2 52 then x.rank else Nat.pow 2 52 + x.rank % Nat.pow 2 52

def exponent (x : Binary64) : Int :=
  if x.rank < Nat.pow 2 52 then -1074 else (x.rank / Nat.pow 2 52 : Nat) - 1075

/-- The quotient rounded to a whole number, a half to the even side. -/
def roundDiv (num den : Nat) : Nat :=
  let q := num / den
  let r := num % den
  if den < 2 * r ∨ (2 * r = den ∧ q % 2 = 1) then q + 1 else q

/-- The exponent with which `num / den` has a mantissa of 53 bits, or the least exponent. -/
def exponentOf (num den : Nat) : Int :=
  let e : Int := (num.log2 : Int) - den.log2 - 52
  let fits :=
    if e ≥ 0 then den * Nat.pow 2 (52 + e.toNat) ≤ num
    else den * Nat.pow 2 52 ≤ num * Nat.pow 2 (-e).toNat
  max (-1074) (if fits then e else e - 1)

/-- The number nearest to `num / den`, or nothing where that is out of range. -/
def ofRatio? (negative : Bool) (num den : Nat) : Option Binary64 :=
  let e := exponentOf num den
  let m :=
    if e ≥ 0 then roundDiv num (den * Nat.pow 2 e.toNat)
    else roundDiv (num * Nat.pow 2 (-e).toNat) den
  let rank := (e + 1074).toNat * Nat.pow 2 52 + m
  if h : rank < rankBound then some ⟨negative, rank, h⟩ else none

/-- The number nearest to `digits * 10 ^ exponent`, or nothing where that is out of range. As ten
is more than `2 ^ 3`, a power of ten that alone decides the answer is never computed. -/
def ofDecimal? (negative : Bool) (digits : Nat) (exponent : Int) : Option Binary64 :=
  if digits = 0 then some (zero negative)
  else if exponent ≥ 0 then
    if digits.log2 + 3 * exponent > 1100 then none
    else ofRatio? negative (digits * Nat.pow 10 exponent.toNat) 1
  else if digits.log2 + 1 + 3 * exponent < -1100 then some (zero negative)
  else ofRatio? negative digits (Nat.pow 10 (-exponent).toNat)

end Binary64
end RestClient
