import Bindery.Statement.Doc
import Bindery.Token.Cursor

namespace Bindery

/-- One statement without its semicolon, the place of its first character, its documentation. -/
structure Statement where
  text : Text
  position : Position
  doc : Option Text
  deriving DecidableEq, Repr

/-- A statement that has begun: its tokens, the latest first, and the open parentheses. -/
structure Pending where
  tokens : List Token
  position : Position
  depth : Nat
  doc : Option Text

namespace Pending

def start (t : Token) (comments : List Text) : Pending :=
  ⟨[], t.position, 0, Doc.clean? comments⟩

def source (p : Pending) : Text :=
  p.tokens.reverse.flatMap Token.text

/-- A comment inside a statement is written as a space and its line ends. -/
def blanked (t : Token) : Text :=
  if t.kind = .comment then ' ' :: List.replicate (Text.newlines t.text) '\n' else t.text

/-- The text of the statement so far, with its comments blanked out. -/
def text (p : Pending) : Text :=
  p.tokens.reverse.flatMap blanked

def read (p : Pending) (t : Token) : Except ParseError Pending :=
  let next := { p with tokens := t :: p.tokens }
  if t.isSymbol '(' then .ok { next with depth := p.depth + 1 }
  else if t.isSymbol ')' then
    if p.depth = 0 then .error (.unbalanced t.position (snippet next.source))
    else .ok { next with depth := p.depth - 1 }
  else .ok next

/-- The finished statement, if all its parentheses are closed; `ending` is the semicolon. -/
def finish (p : Pending) (ending : Text) : Except ParseError Statement :=
  if p.depth > 0 then .error (.unbalanced p.position (snippet (p.source ++ ending)))
  else .ok ⟨Text.trimEnd p.text, p.position, p.doc⟩

end Pending

/-- Where the reading of statements stands. -/
inductive Segmenter where
  /-- Between statements: the comments that may document the next one, and whether code stands
  before on the same line. -/
  | between (comments : List Text) (afterCode : Bool)
  | inside (pending : Pending)

namespace Segmenter

/-- Reads one token; a semicolon may finish a statement. -/
def read (s : Segmenter) (t : Token) : Except ParseError (Segmenter × Option Statement) :=
  match s with
  | .between comments afterCode =>
    if t.kind = .whitespace then
      let ends := Text.newlines t.text
      .ok (.between (if ends > 1 then [] else comments) (afterCode && ends == 0), none)
    else if t.kind = .comment then
      .ok (.between (if afterCode then [] else comments ++ [t.text]) afterCode, none)
    else if t.isSymbol ';' then .ok (.between [] true, none)
    else do
      let pending ← (Pending.start t comments).read t
      return (.inside pending, none)
  | .inside pending =>
    if t.isSymbol ';' then do
      let statement ← pending.finish t.text
      return (.between [] true, some statement)
    else do
      let pending ← pending.read t
      return (.inside pending, none)

/-- Reads all tokens; what has begun at the end is a statement too. -/
def statements (s : Segmenter) : List Token → Except ParseError (List Statement)
  | [] =>
    match s with
    | .between _ _ => .ok []
    | .inside pending => do
      let statement ← pending.finish []
      return [statement]
  | t :: tokens => do
    let (s, statement) ← s.read t
    let more ← s.statements tokens
    return statement.toList ++ more

end Segmenter

def segment (source : Text) : Except ParseError (List Statement) := do
  let tokens ← tokenize source .start
  (Segmenter.between [] false).statements tokens

end Bindery
