namespace Bindery

abbrev Text := List Char

instance : Coe String Text := ⟨String.toList⟩

namespace Text

/-- The number of bytes of the UTF-8 form. -/
def byteSize : Text → Nat
  | [] => 0
  | c :: rest => c.utf8Size + byteSize rest

/-- The text after its first `n` bytes. -/
def dropBytes : Nat → Text → Text
  | 0, t => t
  | _, [] => []
  | n + 1, c :: rest => dropBytes (n + 1 - c.utf8Size) rest

/-- The text made of the first `n` bytes. -/
def takeBytes : Nat → Text → Text
  | 0, _ => []
  | _, [] => []
  | n + 1, c :: rest => c :: takeBytes (n + 1 - c.utf8Size) rest

/-- The part of `t` from byte `start` up to byte `stop`. -/
def between (t : Text) (start stop : Nat) : Text :=
  takeBytes (stop - start) (dropBytes start t)

/-- Whether a character of `t` begins, or `t` ends, at byte `n`. -/
def isBoundary : Text → Nat → Bool
  | _, 0 => true
  | [], _ + 1 => false
  | c :: rest, n + 1 => decide (c.utf8Size ≤ n + 1) && isBoundary rest (n + 1 - c.utf8Size)

def ofNat (n : Nat) : Text :=
  Nat.toDigits 10 n

def dropFront? (front t : Text) : Option Text :=
  if front.isPrefixOf t then some (t.drop front.length) else none

def dropBack? (back t : Text) : Option Text :=
  if back.isSuffixOf t then some (t.take (t.length - back.length)) else none

/-- The number of characters before the first occurrence of `needle`. -/
def find? (needle : Text) : Text → Option Nat
  | [] => if needle.isEmpty then some 0 else none
  | c :: rest =>
    if needle.isPrefixOf (c :: rest) then some 0 else (find? needle rest).map (· + 1)

/-- The part before the last `c` and the part after it. -/
def splitLast? (c : Char) : Text → Option (Text × Text)
  | [] => none
  | d :: rest =>
    match splitLast? c rest with
    | some (before, after) => some (d :: before, after)
    | none => if d = c then some ([], rest) else none

def replaceChar (c : Char) (replacement : Text) (t : Text) : Text :=
  t.flatMap fun d => if d = c then replacement else [d]

/-- The number of line ends in a text. -/
def newlines (t : Text) : Nat :=
  t.count '\n'

/-- Writes each string as a line of its own. -/
def ofLines (lines : List String) : Text :=
  lines.flatMap fun line => line.toList ++ ['\n']

/-- Puts `separator` between the parts. -/
def join (separator : Text) (parts : List Text) : Text :=
  separator.intercalate parts

/-- The ASCII letters `A` to `Z` in small, all else unchanged. -/
def asciiLower (t : Text) : Text :=
  t.map Char.toLower

def sameIgnoringCase (s t : Text) : Bool :=
  asciiLower s == asciiLower t

theorem length_of_dropBack? {back t front : Text} (h : dropBack? back t = some front) :
    front.length + back.length = t.length := by
  unfold dropBack? at h
  split at h
  · rename_i hs
    have hl := (List.isSuffixOf_iff_suffix.mp hs).length_le
    cases h
    rw [List.length_take, Nat.min_eq_left (Nat.sub_le ..)]
    omega
  · contradiction

theorem length_of_splitLast? {c : Char} {t before after : Text}
    (h : splitLast? c t = some (before, after)) : before.length + after.length + 1 = t.length := by
  induction t generalizing before after with
  | nil => contradiction
  | cons d rest ih =>
    unfold splitLast? at h
    split at h
    · rename_i hs
      cases h
      simp only [List.length_cons, ← ih hs]
      omega
    · split at h
      · cases h
        simp
      · contradiction

end Text

end Bindery
