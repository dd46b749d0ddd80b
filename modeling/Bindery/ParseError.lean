import Bindery.Position
import Bindery.Text.Blank

namespace Bindery

/-- A construct that has to be closed. -/
inductive Construct where
  | stringLiteral
  | quotedIdentifier
  | dollarString
  | blockComment
  deriving DecidableEq, Repr

def Construct.describe : Construct → Text
  | .stringLiteral => "string literal"
  | .quotedIdentifier => "quoted identifier"
  | .dollarString => "dollar-quoted string"
  | .blockComment => "block comment"

/-- What makes a statement malformed. -/
inductive Malformation where
  | noFunctionKeyword
  | noFunctionName
  | noParameterList
  | noReturnType (function : Text)
  | noParameterType
  | noObjectName
  | noBaseType (domain : Text)
  | other (complaint : Text)
  deriving DecidableEq, Repr

def Malformation.describe : Malformation → Text
  | .noFunctionKeyword => "missing FUNCTION keyword"
  | .noFunctionName => "missing function name"
  | .noParameterList => "expected parameter list"
  | .noReturnType function => "missing return type for function '" ++ function ++ "'"
  | .noParameterType => "parameter without a type"
  | .noObjectName => "missing object name"
  | .noBaseType domain => "domain '" ++ domain ++ "' has no base type"
  | .other complaint => complaint

/-- The beginning of a source text as errors quote it: trimmed, at most a hundred characters. -/
def snippet (source : Text) : Text :=
  let trimmed := Text.trim source
  if trimmed.length > 100 then trimmed.take 100 ++ "..." else trimmed

/-- A source text that cannot be read, with the place and the quoted source. -/
inductive ParseError where
  | unterminated (construct : Construct) (position : Position) (quoted : Text)
  | unbalanced (position : Position) (quoted : Text)
  | malformed (cause : Malformation) (position : Position) (quoted : Text)
  deriving DecidableEq, Repr

namespace ParseError

def position : ParseError → Position
  | .unterminated _ position _ => position
  | .unbalanced position _ => position
  | .malformed _ position _ => position

def message : ParseError → Text
  | .unterminated construct position quoted =>
    "unterminated " ++ construct.describe ++ " at " ++ position.describe ++ ": " ++ quoted
  | .unbalanced position quoted =>
    "unbalanced parentheses at " ++ position.describe ++ ": " ++ quoted
  | .malformed cause position quoted =>
    "malformed statement at " ++ position.describe ++ ": " ++ cause.describe ++ ": " ++ quoted

end ParseError

end Bindery
