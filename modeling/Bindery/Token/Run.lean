import Bindery.Token.Cursor

namespace Bindery

namespace Token

def opensNesting (t : Token) : Bool :=
  t.isSymbol '(' || t.isSymbol '['

def closesNesting (t : Token) : Bool :=
  t.isSymbol ')' || t.isSymbol ']'

end Token

namespace Run

/-- How many parentheses and brackets are open after a run; a closing one too many counts for
nothing. -/
def depth (before : Nat) (tokens : List Token) : Nat :=
  tokens.foldl
    (fun d t => if t.opensNesting then d + 1 else if t.closesNesting then d - 1 else d) before

/--
The number of tokens before the first one that satisfies `stop`, stands outside parentheses and
brackets, of which `depth` are open before the run, and is not among the first `skip` tokens. It is
the length of the run if there is none.
-/
def topIndex (stop : Token → Bool) : (depth skip : Nat) → List Token → Nat
  | _, _, [] => 0
  | depth, skip, t :: rest =>
    if t.opensNesting then topIndex stop (depth + 1) (skip - 1) rest + 1
    else if t.closesNesting then topIndex stop (depth - 1) (skip - 1) rest + 1
    else if skip = 0 ∧ depth = 0 ∧ stop t then 0
    else topIndex stop depth (skip - 1) rest + 1

/-- The source text from the first token of a run to its last. -/
def covered (source : Text) (tokens : List Token) : Text :=
  match tokens.head?, tokens.getLast? with
  | some first, some last => Text.between source first.offset last.stop
  | _, _ => []

/-- The covered text as a type: its words with single spaces. -/
def typeText (source : Text) (tokens : List Token) : Text :=
  Text.singleSpaced (covered source tokens)

/-- The number of tokens before the parenthesis that closes a list, inside which `depth` further
ones are open. -/
def closingIndex? : Nat → List Token → Option Nat
  | _, [] => none
  | depth, t :: rest =>
    if t.isSymbol '(' then (closingIndex? (depth + 1) rest).map (· + 1)
    else if t.isSymbol ')' then
      if depth = 0 then some 0 else (closingIndex? (depth - 1) rest).map (· + 1)
    else (closingIndex? depth rest).map (· + 1)

/-- The tokens of a name with its schemas, and the tokens after it. -/
def qualifiedName? : List Token → Option (List Token × List Token)
  | first :: dot :: next :: rest =>
    if !first.isIdentifier then none
    else if dot.isSymbol '.' && next.isIdentifier then
      (qualifiedName? (next :: rest)).map fun (name, after) => (first :: dot :: name, after)
    else some ([first], dot :: next :: rest)
  | first :: rest => if first.isIdentifier then some ([first], rest) else none
  | [] => none

def spelledName (tokens : List Token) : Text :=
  Text.join "." ((tokens.filter Token.isIdentifier).map Token.name)

/-- A parenthesized list: the tokens inside, the text inside with its place, the tokens behind. -/
structure Parenthesized where
  inner : List Token
  text : Text
  origin : Position
  after : List Token

/-- Reads the rest of a list from its opening parenthesis on. -/
def parenthesized (source : Text) (opening : Token) (rest : List Token) :
    Except ParseError Parenthesized :=
  match closingIndex? 0 rest with
  | some n =>
    let stop := ((rest[n]?).map Token.offset).getD opening.stop
    .ok ⟨rest.take n, Text.between source opening.stop stop, opening.position.next '(',
      rest.drop (n + 1)⟩
  | none => .error (.unbalanced opening.position (snippet source))

end Run

end Bindery
