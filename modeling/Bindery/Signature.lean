import Bindery.Catalog.Lookup
import Bindery.Statement.Segment

namespace Bindery

/-- Which way a parameter carries values. -/
inductive ParamMode where
  | input
  | output
  | both
  | variadic
  deriving DecidableEq, Repr

/-- A declared parameter; a parameter may have no name. -/
structure Parameter where
  name : Option Text
  mode : ParamMode
  sqlType : Text
  default : Option Text
  deriving DecidableEq, Repr

namespace ParamMode

def ofToken? (t : Token) : Option ParamMode :=
  if t.isKeyword "IN" then some .input
  else if t.isKeyword "OUT" then some .output
  else if t.isKeyword "INOUT" then some .both
  else if t.isKeyword "VARIADIC" then some .variadic
  else none

/-- Takes the mode off the front of a parameter; a single token is a type and no mode. -/
def split (tokens : List Token) : ParamMode × List Token :=
  match tokens with
  | first :: next :: rest =>
    match ofToken? first with
    | some mode => (mode, next :: rest)
    | none => (.input, tokens)
  | _ => (.input, tokens)

end ParamMode

namespace Parameter

def isInput (p : Parameter) : Bool :=
  p.mode != .output

/-- Whether the parameter describes a column of the result. -/
def isOutput (p : Parameter) : Bool :=
  p.mode == .output || p.mode == .both

/-- Any default, also `NULL`, makes a parameter optional. -/
def isOptional (p : Parameter) : Bool :=
  p.default.isSome

def hasSqlDefault (p : Parameter) : Bool :=
  p.default.any fun value => !isNullLiteral value

/--
Whether a declaration is a type without a name: a name is never followed by a point, a modifier or
brackets, and the whole must not be a primitive type of several words.
-/
def isUnnamed (decl : List Token) (whole : Text) : Bool :=
  match decl with
  | first :: next :: _ =>
    !first.isIdentifier || next.isSymbol '.' || next.isSymbol '(' || next.isSymbol '[' ||
      (Scalar.ofSqlName? (TypeRef.parse whole).base).isSome
  | _ => true

/-- Reads one parameter: mode, name, type and default. -/
def parse (f : Fragment) : Except ParseError Parameter := do
  let tokens ← significantTokens f.text f.position
  let (mode, rest) := ParamMode.split tokens
  let n := Run.topIndex (fun t => t.isKeyword "DEFAULT" || t.isSymbol '=') 0 0 rest
  let decl := rest.take n
  let value := rest.drop (n + 1)
  let default := if value.isEmpty then none else some (Run.covered f.text value)
  let whole := Run.typeText f.text decl
  match decl with
  | [] => throw (.malformed .noParameterType f.position (snippet f.text))
  | first :: sqlType =>
    if isUnnamed decl whole then return ⟨none, mode, whole, default⟩
    else return ⟨some first.name, mode, Run.typeText f.text sqlType, default⟩

end Parameter

/-- The columns that the output parameters describe; one without a name is numbered. -/
def outputColumns (params : List Parameter) : List Column :=
  (params.filter Parameter.isOutput).zipIdx.map fun (p, i) =>
    ⟨p.name.getD ("column" ++ Text.ofNat (i + 1)), p.sqlType, true, none⟩

/-- What a function returns, as far as its statement and the catalog tell. -/
inductive ReturnKind where
  /-- A primitive type, a domain, an array or an unknown type. -/
  | scalar (raw : Text)
  /-- A row of a declared table. -/
  | tableRow (raw : Text)
  /-- Rows of a table, declared or not. -/
  | tableRows (raw : Text)
  /-- Rows whose columns the function describes itself. -/
  | explicit (columns : List Column)
  | composite (raw : Text)
  | enum (raw : Text)
  | void
  deriving DecidableEq, Repr

/-- The result of a function and whether it is a set. -/
structure ReturnSpec where
  kind : ReturnKind
  isSet : Bool
  deriving DecidableEq, Repr

namespace ReturnSpec

/-- The result of a function without a return clause: its output parameters, if there are any. -/
def implicit (params : List Parameter) : ReturnSpec :=
  if params.any Parameter.isOutput then ⟨.explicit (outputColumns params), false⟩
  else ⟨.void, false⟩

def ofType (raw : Text) (isSet : Bool) (params : List Parameter) (catalog : Catalog) :
    ReturnSpec :=
  let ref := TypeRef.parse raw
  if ref.dimensions > 0 then ⟨.scalar raw, isSet⟩
  else if ref.base = ("void" : Text) then ⟨.void, false⟩
  else if catalog.tables.contains ref.base then
    ⟨if isSet then .tableRows raw else .tableRow raw, isSet⟩
  else if catalog.composites.contains ref.base then ⟨.composite raw, isSet⟩
  else if catalog.enums.contains ref.base then ⟨.enum raw, isSet⟩
  else if ref.base = ("record" : Text) ∧ params.any Parameter.isOutput then
    ⟨.explicit (outputColumns params), isSet⟩
  else if catalog.domains.contains ref.base ∨ (Scalar.ofSqlName? ref.base).isSome then
    ⟨.scalar raw, isSet⟩
  else if isSet ∧ ref.isSimpleName then ⟨.tableRows raw, isSet⟩
  else ⟨.scalar raw, isSet⟩

/-- Takes `SETOF` off the front of a return clause, if something follows it. -/
def splitSet (clause : List Token) : Bool × List Token :=
  match clause with
  | first :: next :: rest =>
    if first.isKeyword "SETOF" then (true, next :: rest) else (false, clause)
  | _ => (false, clause)

def parse (source : Text) (clause : List Token) (params : List Parameter) (catalog : Catalog) :
    Except ParseError ReturnSpec :=
  let (isSet, rest) := splitSet clause
  let typed := ofType (Run.typeText source rest) isSet params catalog
  match rest with
  | table :: opening :: more =>
    if table.isKeyword "TABLE" && opening.isSymbol '(' then do
      let list ← Run.parenthesized source opening more
      let columns ← ColumnList.parse list.text list.origin
      return ⟨.explicit columns.columns, true⟩
    else .ok typed
  | _ => .ok typed

end ReturnSpec

/-- The signature of a function. -/
structure Signature where
  /-- The name as written, which calls repeat verbatim. -/
  callName : Text
  /-- The name without quotes, possibly with a schema. -/
  name : Text
  doc : Option Text
  params : List Parameter
  returns : ReturnSpec
  position : Position
  deriving DecidableEq, Repr

namespace Signature

def inputs (s : Signature) : List Parameter :=
  s.params.filter Parameter.isInput

def clauseEnds : List Text :=
  ["LANGUAGE", "AS", "IMMUTABLE", "STABLE", "VOLATILE", "STRICT", "CALLED", "SECURITY",
    "PARALLEL", "COST", "ROWS", "SET", "WINDOW", "LEAKPROOF", "NOT", "EXTERNAL", "SUPPORT",
    "TRANSFORM", "BEGIN", "RETURN", "RETURNS"].map String.toList

/-- Reads what follows the parameter list, behind which `depth` parentheses and brackets are
open. -/
def returnSpec (s : Statement) (name : Text) (params : List Parameter) (catalog : Catalog)
    (depth : Nat) (after : List Token) : Except ParseError ReturnSpec :=
  match after with
  | [] => .ok (.implicit params)
  | first :: rest =>
    if first.isKeyword "RETURNS" then
      let clause := rest.take (Run.topIndex (·.isAnyKeyword clauseEnds) depth 0 rest)
      if clause.isEmpty then .error (.malformed (.noReturnType name) s.position (snippet s.text))
      else ReturnSpec.parse s.text clause params catalog
    else .ok (.implicit params)

/-- Reads the signature from a statement that creates a function. -/
def parse (s : Statement) (catalog : Catalog) : Except ParseError Signature := do
  let refuse {α : Type} (cause : Malformation) : Except ParseError α :=
    .error (.malformed cause s.position (snippet s.text))
  let tokens ← significantTokens s.text s.position
  match tokens.dropWhile fun t => !t.isKeyword "FUNCTION" with
  | [] => refuse .noFunctionKeyword
  | _ :: header =>
    match Run.qualifiedName? header with
    | none => refuse .noFunctionName
    | some (nameTokens, afterName) =>
      match afterName with
      | [] => refuse .noParameterList
      | opening :: rest =>
        if !opening.isSymbol '(' then refuse .noParameterList
        else
          let list ← Run.parenthesized s.text opening rest
          let name := Run.spelledName nameTokens
          let fragments ← splitTopLevel list.text list.origin
          let params ← fragments.mapM Parameter.parse
          let depth := Run.depth 0 (tokens.take (tokens.length - list.after.length))
          let returns ← returnSpec s name params catalog depth list.after
          return ⟨Run.covered s.text nameTokens, name, s.doc, params, returns, s.position⟩

end Signature

end Bindery
