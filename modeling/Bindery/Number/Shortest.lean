import Bindery.Number.Binary64

namespace Bindery.Binary64

/--
The decimals that round to a positive number lie between `low` and `high`, themselves included if
`closed`. All bounds count units of `1 / unit`, and so does the number itself.
-/
structure Interval where
  low : Nat
  value : Nat
  high : Nat
  unit : Nat
  closed : Bool

/-- The rounding interval of a positive number. The gap below a power of two is half as wide. -/
def interval (x : Binary64) : Interval :=
  let narrow := x.mantissa = Nat.pow 2 52 ∧ x.exponent > minExponent
  let grow := Nat.pow 2 (x.exponent - 2).toNat
  { low := (4 * x.mantissa - if narrow then 1 else 2) * grow
    value := 4 * x.mantissa * grow
    high := (4 * x.mantissa + 2) * grow
    unit := Nat.pow 2 (2 - x.exponent).toNat
    closed := x.mantissa % 2 = 0 }

namespace Interval

/-- The interval counted in units of `10 ^ k`. -/
def atScale (i : Interval) (k : Int) : Interval :=
  let grow := Nat.pow 10 (-k).toNat
  { i with low := i.low * grow, value := i.value * grow, high := i.high * grow,
           unit := i.unit * Nat.pow 10 k.toNat }

/-- Whether the whole number `c` lies in the interval. -/
def contains (i : Interval) (c : Nat) : Bool :=
  let point := c * i.unit
  if i.closed then decide (i.low ≤ point) && decide (point ≤ i.high)
  else decide (i.low < point) && decide (point < i.high)

/-- The whole number in the interval that is nearest to the value; a half goes up. -/
def nearest? (i : Interval) : Option Nat :=
  let below := i.value / i.unit
  let upper := 2 * (i.value % i.unit) ≥ i.unit
  match i.contains below, i.contains (below + 1) with
  | true, true => some (if upper then below + 1 else below)
  | true, false => some below
  | false, true => some (below + 1)
  | false, false => none

end Interval

/-- Tries the powers of ten downwards from `k`, at most `n` of them, for a decimal that reads
back. -/
def search (i : Interval) : Nat → Int → Nat × Int
  | 0, k => (0, k)
  | n + 1, k =>
    match (i.atScale k).nearest? with
    | some c => (c, k)
    | none => search i n (k - 1)

/-- The digits and the exponent of the shortest decimal for a positive number. -/
def shortest (x : Binary64) : Nat × Int :=
  let top := (x.exponent + (Nat.log2 x.mantissa : Int) + 1) * 30103 / 100000 + 1
  search x.interval 25 top

/-- How decimals are written: positionally from `10 ^ least` up to below `10 ^ greatest`. -/
structure Layout where
  least : Int
  greatest : Int

/-- The digits of a whole number with a point after the first `point` of them. -/
def positional (digits : Text) (point : Int) : Text :=
  if point ≤ 0 then "0." ++ List.replicate (-point).toNat '0' ++ digits
  else if point.toNat < digits.length then
    digits.take point.toNat ++ "." ++ digits.drop point.toNat
  else digits ++ List.replicate (point.toNat - digits.length) '0' ++ ".0"

/-- The digits of a whole number with a point after the first one, and an exponent. -/
def scientific (digits : Text) (exponent : Int) : Text :=
  let fraction := if digits.tail.isEmpty then [] else '.' :: digits.tail
  let power :=
    if exponent < 0 then '-' :: Text.ofNat exponent.natAbs else Text.ofNat exponent.natAbs
  digits.take 1 ++ fraction ++ "e" ++ power

/-- Writes a number with the fewest digits that read back. -/
def render (layout : Layout) (x : Binary64) : Text :=
  let sign : Text := if x.negative then "-" else ""
  if x.mantissa = 0 then sign ++ "0.0"
  else
    let (c, k) := shortest x
    let digits := Text.ofNat c
    let point := (digits.length : Int) + k
    if layout.least < point ∧ point ≤ layout.greatest then sign ++ positional digits point
    else sign ++ scientific digits (point - 1)

end Bindery.Binary64
