namespace Bindery.Text

/-- Membership in a sorted list of closed ranges; the search stops at the first range above `n`. -/
def inRanges (n : Nat) : List (Nat × Nat) → Bool
  | [] => false
  | (lo, hi) :: rest => if n < lo then false else decide (n ≤ hi) || inRanges n rest

/-- Every `stride`-th code point from `first` to `last` is moved so that `first` meets `target`. -/
structure Shift where
  first : Nat
  last : Nat
  stride : Nat
  target : Nat

/-- Where a sorted list of shifts moves `n`; a code point of no shift stays. -/
def shift (n : Nat) : List Shift → Nat
  | [] => n
  | s :: rest =>
    if n < s.first then n
    else if n ≤ s.last then
      if (n - s.first) % s.stride = 0 then s.target + (n - s.first) else n
    else shift n rest

end Bindery.Text
