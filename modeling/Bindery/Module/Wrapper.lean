import Bindery.Module.Default
import Bindery.Module.Descriptor
import Bindery.Module.Hint

namespace Bindery

/-- The value that is passed for a placeholder, in terms of the parameter's identifier. -/
inductive PassedValue where
  | plain (identifier : Text)
  | json (identifier : Text)
  | member (identifier : Text)
  | members (identifier : Text)
  deriving DecidableEq, Repr

def PassedValue.render : PassedValue → Text
  | .plain identifier => identifier
  | .json identifier => "_encode_json(" ++ identifier ++ ")"
  | .member identifier =>
    identifier ++ ".value if isinstance(" ++ identifier ++ ", Enum) else " ++ identifier
  | .members identifier =>
    "[v.value if isinstance(v, Enum) else v for v in " ++ identifier ++ "] if " ++ identifier ++
      " is not None else None"

/-- A parameter of a wrapper: how it is declared, and how it enters the query. -/
structure ParameterCode where
  identifier : Text
  hint : Hint
  default : Option Default
  placeholder : Text
  value : PassedValue
  deriving DecidableEq, Repr

namespace ParameterCode

/-- The declaration in the signature; a default that the database evaluates is written `None`. -/
def declaration (p : ParameterCode) : Text :=
  let declared := p.identifier ++ ": " ++ p.hint.render
  match p.default with
  | none => declared
  | some (.literal literal) => declared ++ " = " ++ literal.render
  | some .null | some (.sql _) => declared ++ " = None"

def jsonCast (sqlType : Text) : Text :=
  if (TypeRef.parse sqlType).base = ("json" : Text) then "json" else "jsonb"

def castPlaceholder (a : Argument) : Text :=
  if a.type.isJson then "%s::" ++ jsonCast a.sqlType
  else if a.type.enumRef?.isSome then "%s::" ++ Module.escapePercent a.sqlType
  else "%s"

def placeholderOf (a : Argument) (default : Option Default) : Text :=
  let cast := castPlaceholder a
  let guarded :=
    match default with
    | some (.sql expression) =>
      "COALESCE(" ++ cast ++ ", " ++ Module.escapePercent expression ++ ")"
    | _ => cast
  if a.isVariadic then "VARIADIC " ++ guarded else guarded

def valueOf (a : Argument) : PassedValue :=
  if a.type.isJson then .json a.identifier
  else if a.type.enumRef?.isSome then
    match a.type with
    | .array _ => .members a.identifier
    | _ => .member a.identifier
  else .plain a.identifier

/-- The code of a parameter, with the enum classes that defaults may name. -/
def ofArgument (enums : List EnumClass) (a : Argument) : ParameterCode :=
  let default := Default.ofArgument? enums a
  ⟨a.identifier, a.type.hintFor a.isOptional, default, placeholderOf a default, valueOf a⟩

end ParameterCode

/-- What is made of one row. -/
inductive RowValue where
  | first
  | decoded (descriptor : Descriptor)
  /-- A record; one whose fields are all missing is kept or counts as missing itself. -/
  | record (className : Text) (keepEmpty : Bool)
  | dictionary
  deriving DecidableEq, Repr

namespace RowValue

def render : RowValue → Text
  | .first => "row[0]"
  | .decoded descriptor => "_decode_value(" ++ descriptor.render ++ ", row[0])"
  | .record className keepEmpty =>
    "_decode_row(" ++ className ++ ", colnames, row" ++ (if keepEmpty then ", False)" else ")")
  | .dictionary => "dict(zip(colnames, row))"

def usesColumns : RowValue → Bool
  | .first | .decoded _ => false
  | .record _ _ | .dictionary => true

def usesSupport : RowValue → Bool
  | .first | .dictionary => false
  | .decoded _ | .record _ _ => true

end RowValue

/-- What is done with the rows of a query. -/
inductive Fetch where
  | nothing
  | one (value : RowValue)
  | all (value : RowValue)
  deriving DecidableEq, Repr

namespace Fetch

/-- The statements, with the margin of the body of the cursor's block. -/
def render (margin : Text) : Fetch → Text
  | .nothing => []
  | .one value =>
    margin ++ "row = await cur.fetchone()\n" ++ margin ++ "if row is None:\n" ++ margin ++
      Module.indent ++ "return None\n" ++ columns margin value ++ margin ++ "return " ++
      value.render ++ "\n"
  | .all value =>
    margin ++ "rows = await cur.fetchall()\n" ++ columns margin value ++ margin ++ "return [" ++
      value.render ++ " for row in rows]\n"
where
  /-- The names of the columns, if they are needed. -/
  columns (margin : Text) (value : RowValue) : Text :=
    if value.usesColumns then margin ++ "colnames = [desc[0] for desc in cur.description]\n"
    else []

def ofWrapper (w : Wrapper) : Fetch :=
  let fetch (value : RowValue) : Fetch := if w.isSet then .all value else .one value
  match w.result with
  | .void => .nothing
  | .value type => fetch (if type.needsDecoding then .decoded type.descriptor else .first)
  | .record className => fetch (.record className w.isSet)
  | .rows => fetch .dictionary

def usesSupport : Fetch → Bool
  | .nothing => false
  | .one value | .all value => value.usesSupport

end Fetch

/-- The code of a wrapper. -/
structure WrapperCode where
  identifier : Text
  params : List ParameterCode
  result : Hint
  doc : Text
  callName : Text
  isTableShaped : Bool
  fetch : Fetch
  deriving DecidableEq, Repr

namespace WrapperCode

def resultHint (w : Wrapper) : Hint :=
  let shaped (item : Hint) (isAny : Bool) : Hint :=
    if w.isSet then .list item else if isAny then item else .optional item
  match w.result with
  | .void => .none
  | .value type => shaped type.hint type.isUnknown
  | .record className => shaped (.named className) false
  | .rows => shaped .any true

/-- The code of a wrapper, with the enum classes that defaults may name. -/
def ofWrapper (enums : List EnumClass) (w : Wrapper) : WrapperCode :=
  { identifier := w.identifier
    params := w.params.map (ParameterCode.ofArgument enums)
    result := resultHint w
    doc := w.doc.getD ("Call PostgreSQL function " ++ w.callName ++ "().")
    callName := w.callName
    isTableShaped := w.isTableShaped
    fetch := Fetch.ofWrapper w }

/-- The longest signature, in bytes, that is written on one line. -/
def maxWidth : Nat := 88

def signature (c : WrapperCode) : Text :=
  let params : List Text := "conn: AsyncConnection" :: c.params.map ParameterCode.declaration
  let opening : Text := "async def " ++ c.identifier ++ "("
  let closing : Text := ") -> " ++ c.result.render ++ ":"
  let single := opening ++ Text.join ", " params ++ closing
  let listed : Text := params.flatMap fun p => Module.indent ++ p ++ ",\n"
  if single.byteSize ≤ maxWidth then single ++ "\n"
  else opening ++ "\n" ++ listed ++ closing ++ "\n"

def query (c : WrapperCode) : Text :=
  let call := Module.escapePercent c.callName ++ "(" ++
    Text.join ", " (c.params.map ParameterCode.placeholder) ++ ")"
  if c.isTableShaped then "SELECT * FROM " ++ call else "SELECT " ++ call

def values (c : WrapperCode) : List Text :=
  c.params.map fun p => p.value.render

/-- The arguments of the call that runs the query; a query without placeholders has no values. -/
def executeArguments (c : WrapperCode) : Text :=
  let query := Module.quote c.query
  if c.params.isEmpty then query else query ++ ", [" ++ Text.join ", " c.values ++ "]"

def render (c : WrapperCode) : Text :=
  let margin := Module.indent ++ Module.indent
  c.signature ++ Module.docstring c.doc Module.indent ++ Module.indent ++
    "async with conn.cursor() as cur:\n" ++ margin ++ "await cur.execute(" ++
    c.executeArguments ++ ")\n" ++ c.fetch.render margin

def usesSupport (c : WrapperCode) : Bool :=
  c.fetch.usesSupport || c.params.any fun p =>
    match p.value with
    | .json _ => true
    | _ => false

def usesMembers (c : WrapperCode) : Bool :=
  c.params.any fun p =>
    match p.value with
    | .member _ | .members _ => true
    | _ => false

def imports (c : WrapperCode) : Imports :=
  Imports.concat (c.params.map fun p => p.hint.imports) ++ c.result.imports ++
    if c.usesMembers then Imports.ofNames "enum" ["Enum"] else {}

end WrapperCode

end Bindery
