import Bindery.Text.Basic

namespace Bindery

/-- The number `coefficient · 10 ^ exponent`, with its sign. -/
structure Decimal where
  negative : Bool
  coefficient : Nat
  exponent : Int
  deriving DecidableEq, Repr

/-- What a numeral denotes. -/
inductive Numeral where
  | finite (value : Decimal)
  | infinite (negative : Bool)
  | nan
  deriving DecidableEq, Repr

namespace Numeral

def isDigit (c : Char) : Bool :=
  '0' ≤ c && c ≤ '9'

def digitsValue (digits : Text) : Nat :=
  digits.foldl (fun n c => 10 * n + (c.toNat - '0'.toNat)) 0

/-- Takes a sign off the front; the first result tells whether it is a minus. -/
def splitSign (t : Text) : Bool × Text :=
  match t with
  | '-' :: rest => (true, rest)
  | '+' :: rest => (false, rest)
  | _ => (false, t)

/-- A whole number with an optional sign. -/
def integer? (t : Text) : Option Int :=
  let (negative, digits) := splitSign t
  if digits.isEmpty || !digits.all isDigit then none
  else if negative then some (-(digitsValue digits : Int))
  else some (digitsValue digits)

/-- A whole number that fits into 64 bits with a sign. -/
def int64? (t : Text) : Option Int :=
  (integer? t).filter fun n => -0x8000000000000000 ≤ n && n < 0x8000000000000000

def exponent? (t : Text) : Option Int :=
  match t with
  | [] => some 0
  | e :: rest => if e = 'e' ∨ e = 'E' then integer? rest else none

/-- A numeral without its sign: digits, a point among them, and an exponent. -/
def unsigned? (negative : Bool) (t : Text) : Option Decimal :=
  let whole := t.takeWhile isDigit
  let rest := t.drop whole.length
  let fraction := if rest.head? = some '.' then rest.tail.takeWhile isDigit else []
  let rest := if rest.head? = some '.' then rest.drop (fraction.length + 1) else rest
  if whole.isEmpty && fraction.isEmpty then none
  else
    (exponent? rest).map fun e =>
      ⟨negative, digitsValue (whole ++ fraction), e - (fraction.length : Int)⟩

/-- Reads a numeral; infinity and the undefined value are spelled in letters of either case. -/
def parse? (t : Text) : Option Numeral :=
  let (negative, rest) := splitSign t
  let word := Text.asciiLower rest
  if word = ("inf" : Text) ∨ word = ("infinity" : Text) then some (.infinite negative)
  else if word = ("nan" : Text) then some .nan
  else (unsigned? negative rest).map .finite

end Numeral

end Bindery
