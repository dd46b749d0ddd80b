import Bindery.Binding.Basic
import Bindery.Module.Literal
import Bindery.Number.Shortest

namespace Bindery

/-- A Python literal for a default. -/
inductive Literal where
  | integer (value : Int)
  | float (value : Binary64)
  | decimal (numeral : Text)
  | boolean (value : Bool)
  | text (value : Text)
  | uuid (value : Text)
  | member (className name : Text)
  deriving DecidableEq, Repr

namespace Literal

/-- Floating-point numbers are written positionally from `10 ^ -4` up to below `10 ^ 16`. -/
def floatLayout : Binary64.Layout := ⟨-4, 16⟩

def render : Literal → Text
  | .integer value =>
    if value < 0 then "-" ++ Text.ofNat value.natAbs else Text.ofNat value.natAbs
  | .float value => value.render floatLayout
  | .decimal numeral => "Decimal(" ++ Module.quote numeral ++ ")"
  | .boolean value => if value then "True" else "False"
  | .text value => Module.quote value
  | .uuid value => "UUID(" ++ Module.quote value ++ ")"
  | .member className name => className ++ "." ++ name

end Literal

/-- A simple value that a default may consist of. -/
inductive Head where
  | text (value : Text)
  | number (numeral : Text)
  | boolean (value : Bool)
  deriving DecidableEq, Repr

namespace Head

def beforeCast : List Token → List Token
  | a :: b :: rest =>
    if a.isSymbol ':' && b.isSymbol ':' then [] else a :: beforeCast (b :: rest)
  | tokens => tokens

def ofToken? (t : Token) : Option Head :=
  match t.kind with
  | .number => some (.number t.text)
  | .string => t.stringValue?.map .text
  | .word =>
    if t.isKeyword "TRUE" then some (.boolean true)
    else if t.isKeyword "FALSE" then some (.boolean false)
    else none
  | _ => none

/-- The value at the head of a default, if nothing but casts follows its first tokens. -/
def parse? (raw : Text) : Option Head :=
  match significantTokens raw .start with
  | .error _ => none
  | .ok tokens =>
    match beforeCast tokens with
    | [single] => ofToken? single
    | [sign, digits] =>
      if sign.isSymbol '-' && digits.kind == .number then some (.number ('-' :: digits.text))
      else none
    | _ => none

def boolean? (t : Text) : Option Bool :=
  let word := Text.asciiLower (Text.trim t)
  if ["t", "true", "y", "yes", "on", "1"].any (·.toList == word) then some true
  else if ["f", "false", "n", "no", "off", "0"].any (·.toList == word) then some false
  else none

def isHexDigit (c : Char) : Bool :=
  ('0' ≤ c && c ≤ '9') || ('a' ≤ c && c ≤ 'f') || ('A' ≤ c && c ≤ 'F')

/-- Whether a text has the form of a universal identifier: 32 hexadecimal digits and hyphens. -/
def isUuid (t : Text) : Bool :=
  let digits := t.filter (· != '-')
  digits.length == 32 && digits.all isHexDigit

def numeral? : Head → Option Text
  | .text value | .number value => some (Text.trim value)
  | .boolean _ => none

/-- A floating-point literal, if the numeral denotes a finite number. -/
def float? (numeral : Text) : Option Literal :=
  match Numeral.parse? numeral with
  | some (.finite d) => (Binary64.ofDecimal? d).map .float
  | _ => none

def literal? (enums : List EnumClass) (type : ValueType) (head : Head) : Option Literal :=
  match type, head with
  | .scalar .integer, head => do
    let value ← Numeral.int64? (← head.numeral?)
    return .integer value
  | .scalar .float, head => do float? (← head.numeral?)
  | .scalar .decimal, head => do
    let numeral ← head.numeral?
    let _ ← Numeral.parse? numeral
    return .decimal numeral
  | .scalar .boolean, .boolean value => some (.boolean value)
  | .scalar .boolean, .text value => (boolean? value).map .boolean
  | .scalar .text, .text value => some (.text value)
  | .scalar .uuid, .text value => if isUuid value then some (.uuid value) else none
  | .enum ref, .text label => do
    let enum ← enums.find? fun e => e.className == ref.className
    let member ← enum.member? label
    return .member ref.className member.name
  | _, _ => none

end Head

/-- What stands for the default of a parameter. -/
inductive Default where
  /-- No value, which the database receives as `NULL`. -/
  | null
  | literal (literal : Literal)
  /-- An expression that the database evaluates when the argument is left out. -/
  | sql (expression : Text)
  deriving DecidableEq, Repr

def Default.ofArgument? (enums : List EnumClass) (a : Argument) : Option Default :=
  a.default.map fun value =>
    let raw := Text.trim value
    if !a.hasSqlDefault then .null
    else
      match (Head.parse? raw).bind (Head.literal? enums a.type) with
      | some value => .literal value
      | none => .sql raw

end Bindery
