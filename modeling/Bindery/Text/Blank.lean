import Bindery.Text.Basic

namespace Bindery.Text

/-- The characters with the property `White_Space`. -/
def isBlank (c : Char) : Bool :=
  let n := c.toNat
  (9 ≤ n && n ≤ 13) || n == 0x20 || n == 0x85 || n == 0xA0 || n == 0x1680 ||
    (0x2000 ≤ n && n ≤ 0x200A) || n == 0x2028 || n == 0x2029 || n == 0x202F || n == 0x205F ||
    n == 0x3000

def trimStart (t : Text) : Text :=
  t.dropWhile isBlank

def trimEnd (t : Text) : Text :=
  (t.reverse.dropWhile isBlank).reverse

def trim (t : Text) : Text :=
  trimEnd (trimStart t)

def isBlankText (t : Text) : Bool :=
  t.all isBlank

/-- The maximal runs of characters that are not white space. -/
def words (t : Text) : List Text :=
  (t.splitOnP isBlank).filter fun word => !word.isEmpty

def singleSpaced (t : Text) : Text :=
  join " " (words t)

def dropReturn (line : Text) : Text :=
  (dropBack? ['\r'] line).getD line

/--
The lines of a text. A line end is a newline together with a carriage return before it; nothing
after the last line end is no line.
-/
def lines (t : Text) : List Text :=
  let pieces := t.splitOnP (· == '\n')
  pieces.dropLast.map dropReturn ++ pieces.getLast?.toList.filter fun last => !last.isEmpty

theorem length_trimEnd_le (t : Text) : (trimEnd t).length ≤ t.length := by
  have h : (t.reverse.dropWhile isBlank).length ≤ t.reverse.length :=
    (List.dropWhile_sublist _).length_le
  simpa [trimEnd] using h

end Bindery.Text
