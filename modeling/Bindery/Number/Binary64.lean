import Bindery.Number.Numeral

namespace Bindery

/-- The number `mantissa · 2 ^ exponent`, with its sign. -/
structure Binary64 where
  negative : Bool
  mantissa : Nat
  exponent : Int
  deriving DecidableEq, Repr

namespace Binary64

def minExponent : Int := -1074

def maxExponent : Int := 971

/-- The quotient rounded to the nearest whole number; a half goes to the even neighbour. -/
def roundDiv (num den : Nat) : Nat :=
  let quotient := num / den
  let twice := 2 * (num % den)
  if twice < den then quotient
  else if twice > den then quotient + 1
  else if quotient % 2 = 0 then quotient
  else quotient + 1

/-- `num / den` in units of `2 ^ exponent`, as a fraction. -/
def scaled (num den : Nat) (exponent : Int) : Nat × Nat :=
  if exponent ≥ 0 then (num, den * Nat.pow 2 exponent.toNat)
  else (num * Nat.pow 2 (-exponent).toNat, den)

/-- The exponent of the greatest power of two that is at most `num / den`, which is positive. -/
def log2 (num den : Nat) : Int :=
  let guess : Int := (Nat.log2 num : Int) - (Nat.log2 den : Int)
  let (n, d) := scaled num den guess
  if n < d then guess - 1 else guess

/-- The nearest number to the positive fraction `num / den`; none beyond the greatest one. -/
def round? (negative : Bool) (num den : Nat) : Option Binary64 :=
  let exponent := max (log2 num den - 52) minExponent
  let (n, d) := scaled num den exponent
  let mantissa := roundDiv n d
  let (mantissa, exponent) :=
    if mantissa = Nat.pow 2 53 then (Nat.pow 2 52, exponent + 1) else (mantissa, exponent)
  if exponent > maxExponent then none else some ⟨negative, mantissa, exponent⟩

/--
The nearest number to a decimal; none beyond the greatest one. Decimals of more than 310 digits
before the point, and those that begin after the 330th place behind it, are not computed.
-/
def ofDecimal? (d : Decimal) : Option Binary64 :=
  let magnitude := ((Nat.toDigits 10 d.coefficient).length : Int) + d.exponent
  if d.coefficient = 0 ∨ magnitude < -330 then some ⟨d.negative, 0, minExponent⟩
  else if magnitude > 310 then none
  else if d.exponent ≥ 0 then round? d.negative (d.coefficient * Nat.pow 10 d.exponent.toNat) 1
  else round? d.negative d.coefficient (Nat.pow 10 (-d.exponent).toNat)

end Binary64

end Bindery
