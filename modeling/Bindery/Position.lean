import Bindery.Text.Basic

namespace Bindery

/-- A place in a source text: line and column, counted from one, the column in characters. -/
structure Position where
  line : Nat
  column : Nat
  deriving DecidableEq, Repr

namespace Position

/-- The place of the first character of a text. -/
def start : Position := ⟨1, 1⟩

instance : Inhabited Position := ⟨start⟩

/-- The place after one character: only a newline starts a new line. -/
def next (p : Position) (c : Char) : Position :=
  if c = '\n' then ⟨p.line + 1, 1⟩ else ⟨p.line, p.column + 1⟩

/-- The place after walking over a text. -/
def advance (p : Position) (t : Text) : Position :=
  t.foldl next p

def describe (p : Position) : Text :=
  "line " ++ Text.ofNat p.line ++ ", column " ++ Text.ofNat p.column

@[simp] theorem advance_nil (p : Position) : p.advance [] = p := rfl

@[simp] theorem advance_cons (p : Position) (c : Char) (t : Text) :
    p.advance (c :: t) = (p.next c).advance t := rfl

@[simp] theorem advance_append (p : Position) (s t : Text) :
    p.advance (s ++ t) = (p.advance s).advance t := by
  simp [advance, List.foldl_append]

end Position

end Bindery
