import Bindery.Token.Lexeme

namespace Bindery

/-- A piece of a list without the white space around it, and the place of its first character. -/
structure Fragment where
  text : Text
  position : Position
  deriving DecidableEq, Repr

/-- How many brackets of each kind are open. -/
structure Nesting where
  parens : Nat := 0
  braces : Nat := 0
  brackets : Nat := 0
  deriving DecidableEq, Repr

namespace Nesting

def isTop (d : Nesting) : Bool :=
  d.parens == 0 && d.braces == 0 && d.brackets == 0

/-- The nesting after a character; a closing bracket needs an open one of its kind. -/
def next? (d : Nesting) (c : Char) : Option Nesting :=
  match c with
  | '(' => some { d with parens := d.parens + 1 }
  | '\x7b' => some { d with braces := d.braces + 1 }
  | '[' => some { d with brackets := d.brackets + 1 }
  | ')' => if d.parens = 0 then none else some { d with parens := d.parens - 1 }
  | '\x7d' => if d.braces = 0 then none else some { d with braces := d.braces - 1 }
  | ']' => if d.brackets = 0 then none else some { d with brackets := d.brackets - 1 }
  | _ => some d

end Nesting

namespace Fragment

/--
How many characters of `rest` belong to the quoted text that `c` opens. A quoted text ends at the
next quote, so that a doubled quote ends one and opens another.
-/
def quotedLength (c : Char) (rest : Text) : Except Construct Nat :=
  let upTo (quote : Char) (construct : Construct) : Except Construct Nat :=
    match rest.findIdx? (· == quote) with
    | some n => .ok (n + 1)
    | none => .error construct
  if c = '\'' then upTo '\'' .stringLiteral
  else if c = '"' then upTo '"' .quotedIdentifier
  else if c = '$' then
    match Lexeme.dollarTag? rest with
    | some tag =>
      match Lexeme.dollarBody tag rest with
      | some n => .ok n
      | none => .error .dollarString
    | none => .ok 0
  else .ok 0

/-- Puts `front` before the first piece. -/
def attach (front : Text) : List Text → List Text
  | [] => [front]
  | piece :: pieces => (front ++ piece) :: pieces

/--
Cuts a text at its top-level commas. The text stands at `here` inside the list that begins at
`origin` and is quoted in errors as `quoted`; `nesting` counts the brackets open before it.
-/
def cut (origin : Position) (quoted : Text) (here : Position) (nesting : Nesting) (t : Text) :
    Except ParseError (List Text) :=
  match t with
  | [] => if nesting.isTop then .ok [[]] else .error (.unbalanced origin quoted)
  | c :: rest =>
    if c = ',' ∧ nesting.isTop then do
      let pieces ← cut origin quoted (here.next c) nesting rest
      return [] :: pieces
    else
      match quotedLength c rest with
      | .error construct => .error (.unterminated construct here quoted)
      | .ok n =>
        match nesting.next? c with
        | none => .error (.unbalanced here quoted)
        | some inner => do
          let front := c :: rest.take n
          let pieces ← cut origin quoted (here.advance front) inner (rest.drop n)
          return attach front pieces
termination_by t.length

/-- The fragment that a piece standing at `here` holds, if it is not blank. -/
def ofPiece? (here : Position) (piece : Text) : Option Fragment :=
  if Text.isBlankText piece then none
  else some ⟨Text.trim piece, here.advance (piece.takeWhile Text.isBlank)⟩

/-- The fragments of the pieces that stand from `here` on with a comma between them. -/
def ofPieces (here : Position) : List Text → List Fragment
  | [] => []
  | piece :: pieces =>
    (ofPiece? here piece).toList ++ ofPieces (here.advance (piece ++ [','])) pieces

end Fragment

/-- The non-blank fragments between the top-level commas of a list that begins at `origin`. -/
def splitTopLevel (list : Text) (origin : Position) : Except ParseError (List Fragment) := do
  let pieces ← Fragment.cut origin (snippet list) origin {} list
  return Fragment.ofPieces origin pieces

end Bindery
