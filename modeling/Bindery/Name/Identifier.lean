import Bindery.Name.Singular
import Bindery.Text.Words

namespace Bindery.Name

def keywords : List Text :=
  ["False", "None", "True", "and", "as", "assert", "async", "await", "break", "class", "continue",
    "def", "del", "elif", "else", "except", "finally", "for", "from", "global", "if", "import",
    "in", "is", "lambda", "nonlocal", "not", "or", "pass", "raise", "return", "try", "while",
    "with", "yield"].map String.toList

def isKeyword (name : Text) : Bool :=
  keywords.contains name

/-- A name without its schema: what follows the last point. -/
def bare (name : Text) : Text :=
  match Text.splitLast? '.' name with
  | some (_, last) => last
  | none => name

def isIdentifierChar (c : Char) : Bool :=
  Text.isAlphanumeric c || c == '_'

/-- Writes an underscore for every character that an identifier cannot hold. -/
def sanitize (name : Text) : Text :=
  name.map fun c => if isIdentifierChar c then c else '_'

def startsWithDigit (name : Text) : Bool :=
  name.head?.any fun c => '0' ≤ c && c ≤ '9'

/--
An identifier for any text: `fallback` for the empty text and before a leading digit, and an
underscore after a reserved word.
-/
def identifier (name fallback : Text) : Text :=
  let clean := sanitize name
  if clean.isEmpty then fallback
  else
    let started := if startsWithDigit clean then fallback ++ "_" ++ clean else clean
    if isKeyword started then started ++ "_" else started

def className (name : Text) : Text :=
  let camel := sanitize (Text.upperCamel name)
  if camel.isEmpty then "Record"
  else if startsWithDigit camel then "T" ++ camel
  else camel

def enumClass (sqlName : Text) : Text :=
  className (bare sqlName)

/-- The class of a table or composite type: the last word of the name in the singular. -/
def recordClass (sqlName : Text) : Text :=
  let name := bare sqlName
  match Text.splitLast? '_' name with
  | some (front, last) =>
    if last.isEmpty then className (singular name) else className (front ++ "_" ++ singular last)
  | none => className (singular name)

/-- The class of the rows that a function describes itself. -/
def resultClass (identifier : Text) : Text :=
  className identifier ++ "Result"

def function (sqlName : Text) : Text :=
  identifier (bare sqlName) "func"

/-- The identifier of a parameter, which loses a leading `p_` or underscore. -/
def parameter (sqlName : Text) : Text :=
  let stripped := (Text.dropFront? "p_" sqlName).or (Text.dropFront? "_" sqlName)
  identifier ((stripped.filter fun rest => !rest.isEmpty).getD sqlName) "arg"

def field (column : Text) : Text :=
  identifier column "field"

/-- The name of the member for an enum label: its words in capitals. -/
def member (label : Text) : Text :=
  let shouty := sanitize (Text.shoutySnake label)
  if shouty.isEmpty then "EMPTY"
  else if startsWithDigit shouty then "VALUE_" ++ shouty
  else shouty

end Bindery.Name
