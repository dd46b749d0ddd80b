import Bindery.ParseError
import Bindery.Text.Alphabetic
import Bindery.Token.Basic

namespace Bindery

namespace Lexeme

def isDigit (c : Char) : Bool :=
  '0' ≤ c && c ≤ '9'

def isNameStart (c : Char) : Bool :=
  Text.isAlphabetic c || c == '_'

def isTagChar (c : Char) : Bool :=
  Text.isAlphanumeric c || c == '_'

def isNameChar (c : Char) : Bool :=
  isTagChar c || c == '$'

/--
What a scan for the end of a construct comes to: the construct closes after `length` characters, or
the text ends after `length` characters and leaves it open.
-/
inductive Scan where
  | closed (length : Nat)
  | exhausted (length : Nat)
  deriving DecidableEq, Repr

/-- The scan that has passed `n` more characters at its beginning. -/
def Scan.past (n : Nat) : Scan → Scan
  | closed length => closed (length + n)
  | exhausted length => exhausted (length + n)

/--
Scans the rest of a quoted text whose opening quote has been read for its closing quote. A doubled
quote does not close it, nor does, if there are escapes, a character after a backslash.
-/
def quoted (quote : Char) (escapes : Bool) : Text → Scan
  | [] => .exhausted 0
  | [c] => if c = quote then .closed 1 else .exhausted 1
  | c :: d :: rest =>
    if escapes ∧ c = '\\' then (quoted quote escapes rest).past 2
    else if c = quote then
      if d = quote then (quoted quote escapes rest).past 2 else .closed 1
    else (quoted quote escapes (d :: rest)).past 1

/-- Scans the rest of a block comment, inside which `depth` further comments are open. -/
def blockComment : Nat → Text → Scan
  | depth, '/' :: '*' :: rest => (blockComment (depth + 1) rest).past 2
  | 0, '*' :: '/' :: _ => .closed 2
  | depth + 1, '*' :: '/' :: rest => (blockComment depth rest).past 2
  | depth, _ :: rest => (blockComment depth rest).past 1
  | _, [] => .exhausted 0

/-- The length of the rest of a dollar tag, of which the first dollar has been read. -/
def dollarTag? : Text → Option Nat
  | [] => none
  | c :: rest =>
    if c = '$' then some 1
    else if isNameStart c then
      let name := rest.takeWhile isTagChar
      match rest.drop name.length with
      | '$' :: _ => some (name.length + 2)
      | _ => none
    else none

def exponent : Text → Nat
  | e :: rest =>
    if e = 'e' ∨ e = 'E' then
      match rest with
      | sign :: digits =>
        if isDigit sign then 1 + (rest.takeWhile isDigit).length
        else if (sign = '+' ∨ sign = '-') ∧ (digits.head?.any isDigit) then
          2 + (digits.takeWhile isDigit).length
        else 0
      | [] => 0
    else 0
  | [] => 0

/-- The length of the rest of a number: digits and points, then an exponent. -/
def number (rest : Text) : Nat :=
  let mantissa := (rest.takeWhile fun c => isDigit c || c == '.').length
  mantissa + exponent (rest.drop mantissa)

/--
The length of the rest of a dollar-quoted text whose first dollar and rest of tag are given. The
closing tag is looked for before anything is read.
-/
def dollarBody (tag : Nat) (rest : Text) : Option Nat :=
  (Text.find? ('$' :: rest.take tag) (rest.drop tag)).map fun body => tag + body + (tag + 1)

end Lexeme

open Lexeme in
/--
The kind of the token that begins with `c` and goes on into `rest`, and how many characters of
`rest` it takes; or the construct that is not closed, and how many characters, `c` among them, have
been read when that comes out.
-/
def lexeme (c : Char) (rest : Text) : Except (Construct × Nat) (TokenKind × Nat) :=
  if Text.isBlank c then .ok (.whitespace, (rest.takeWhile Text.isBlank).length)
  else if c = '-' ∧ rest.head? = some '-' then
    .ok (.comment, (rest.takeWhile (· != '\n')).length)
  else if c = '/' ∧ rest.head? = some '*' then
    match blockComment 0 rest.tail with
    | .closed n => .ok (.comment, n + 1)
    | .exhausted n => .error (.blockComment, n + 2)
  else if c = '\'' then
    match quoted '\'' false rest with
    | .closed n => .ok (.string, n)
    | .exhausted n => .error (.stringLiteral, n + 1)
  else if (c = 'E' ∨ c = 'e') ∧ rest.head? = some '\'' then
    match quoted '\'' true rest.tail with
    | .closed n => .ok (.string, n + 1)
    | .exhausted n => .error (.stringLiteral, n + 2)
  else if c = '"' then
    match quoted '"' false rest with
    | .closed n => .ok (.quotedIdentifier, n)
    | .exhausted n => .error (.quotedIdentifier, n + 1)
  else if c = '$' then
    match dollarTag? rest with
    | some tag =>
      match dollarBody tag rest with
      | some n => .ok (.dollarString, n)
      | none => .error (.dollarString, 0)
    | none => .ok (.symbol, 0)
  else if isDigit c ∨ (c = '.' ∧ rest.head?.any isDigit) then .ok (.number, number rest)
  else if isNameStart c then .ok (.word, (rest.takeWhile isNameChar).length)
  else .ok (.symbol, 0)

end Bindery
