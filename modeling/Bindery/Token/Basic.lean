import Bindery.Position

namespace Bindery

/-- The kinds of tokens; a symbol is a single character that belongs to no other kind. -/
inductive TokenKind where
  | word
  | quotedIdentifier
  | string
  | dollarString
  | number
  | comment
  | whitespace
  | symbol
  deriving DecidableEq, Repr

/-- A token with its exact text, the byte at which it starts and the place where it stands. -/
structure Token where
  kind : TokenKind
  text : Text
  offset : Nat
  position : Position
  deriving DecidableEq, Repr

/-- Drops the quote at either end and reads a doubled quote as one. -/
def unquote (quote : Char) (t : Text) : Text :=
  let inner := (Text.dropFront? [quote] t).getD t
  undouble ((Text.dropBack? [quote] inner).getD inner)
where
  undouble : Text → Text
    | c :: d :: rest =>
      if c = quote ∧ d = quote then quote :: undouble rest else c :: undouble (d :: rest)
    | [c] => [c]
    | [] => []

namespace Token

/-- The byte after the last one of the token. -/
def stop (t : Token) : Nat :=
  t.offset + t.text.byteSize

/-- An unquoted word that spells `keyword` up to the case of its letters. -/
def isKeyword (t : Token) (keyword : Text) : Bool :=
  t.kind == .word && t.text.sameIgnoringCase keyword

def isAnyKeyword (t : Token) (keywords : List Text) : Bool :=
  keywords.any t.isKeyword

def isSymbol (t : Token) (symbol : Char) : Bool :=
  t.kind == .symbol && t.text.head? == some symbol

def isTrivia (t : Token) : Bool :=
  t.kind == .whitespace || t.kind == .comment

/-- Tokens that can name something. -/
def isIdentifier (t : Token) : Bool :=
  t.kind == .word || t.kind == .quotedIdentifier

/-- The name that an identifier spells, without its quotes. -/
def name (t : Token) : Text :=
  if t.kind = .quotedIdentifier then unquote '"' t.text else t.text

/-- The text that a plain string literal denotes; a literal with escapes has none here. -/
def stringValue? (t : Token) : Option Text :=
  if t.kind = .string ∧ t.text.head? = some '\'' then some (unquote '\'' t.text) else none

end Token

end Bindery
