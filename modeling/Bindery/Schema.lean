import Bindery.Diagnostic
import Bindery.Signature

namespace Bindery

/-- What a statement declares. -/
inductive Declaration where
  | table (table : Table) (skipped : List Text)
  | composite (composite : Composite) (skipped : List Text)
  | enum (enum : EnumType)
  | domain (domain : Domain)
  | function (statement : Statement)
  | other

/-- The kinds of statements that declare something. -/
inductive StatementKind where
  | table
  | type
  | domain
  | function
  | other
  deriving DecidableEq, Repr

namespace StatementKind

/-- The words that may stand before `TABLE`. -/
def tableModifiers : List Text :=
  ["GLOBAL", "LOCAL", "TEMP", "TEMPORARY", "UNLOGGED"]

def dropOrReplace : List Token → List Token
  | a :: b :: rest =>
    if a.isKeyword "OR" && b.isKeyword "REPLACE" then rest else a :: b :: rest
  | tokens => tokens

def ofToken (t : Token) : StatementKind :=
  if t.isKeyword "TABLE" then .table
  else if t.isKeyword "TYPE" then .type
  else if t.isKeyword "DOMAIN" then .domain
  else if t.isKeyword "FUNCTION" then .function
  else .other

/-- The kind of a statement, and the tokens after the word that tells it. -/
def split (tokens : List Token) : StatementKind × List Token :=
  match tokens with
  | [] => (.other, [])
  | create :: rest =>
    if !create.isKeyword "CREATE" then (.other, [])
    else
      match (dropOrReplace rest).dropWhile fun t => t.isAnyKeyword tableModifiers with
      | [] => (.other, [])
      | t :: rest => (ofToken t, rest)

end StatementKind

namespace Declaration

def objectName (s : Statement) (tokens : List Token) : Except ParseError (Text × List Token) :=
  match Run.qualifiedName? tokens with
  | some (name, rest) => .ok (Run.spelledName name, rest)
  | none => .error (.malformed .noObjectName s.position (snippet s.text))

def dropIfNotExists : List Token → List Token
  | a :: b :: c :: rest =>
    if a.isKeyword "IF" && b.isKeyword "NOT" && c.isKeyword "EXISTS" then rest
    else a :: b :: c :: rest
  | tokens => tokens

/-- A table; one without a list of columns declares nothing. -/
def ofTable (s : Statement) (tokens : List Token) : Except ParseError Declaration := do
  let (name, rest) ← objectName s (dropIfNotExists tokens)
  match rest with
  | [] => return .other
  | opening :: rest =>
    if !opening.isSymbol '(' then return .other
    else
      let list ← Run.parenthesized s.text opening rest
      let columns ← ColumnList.parse list.text list.origin
      return .table ⟨name, columns.columns⟩ columns.skipped

def ofEnum (s : Statement) (name : Text) (tokens : List Token) : Except ParseError Declaration :=
  match tokens with
  | [] => .ok .other
  | opening :: rest =>
    if !opening.isSymbol '(' then .ok .other
    else do
      let list ← Run.parenthesized s.text opening rest
      return .enum ⟨name, list.inner.filterMap Token.stringValue?⟩

/-- The fields of a composite type in parentheses; every field may be null. -/
def ofComposite (s : Statement) (name : Text) (tokens : List Token) :
    Except ParseError Declaration :=
  match tokens with
  | [] => .ok .other
  | opening :: rest =>
    if !opening.isSymbol '(' then .ok .other
    else do
      let list ← Run.parenthesized s.text opening rest
      let columns ← ColumnList.parse list.text list.origin
      let fields := columns.columns.map fun c => { c with nullable := true }
      return .composite ⟨name, fields⟩ columns.skipped

/-- A type; one that is neither an enum nor a list of fields declares nothing. -/
def ofType (s : Statement) (tokens : List Token) : Except ParseError Declaration := do
  let (name, rest) ← objectName s tokens
  match rest with
  | [] => return .other
  | t :: rest =>
    if !t.isKeyword "AS" then return .other
    else
      match rest with
      | [] => return .other
      | t :: more => if t.isKeyword "ENUM" then ofEnum s name more else ofComposite s name rest

def baseTypeEnds : List Text :=
  ["CONSTRAINT", "NOT", "NULL", "CHECK", "DEFAULT", "COLLATE"]

/-- A domain, whose base type must be there. -/
def ofDomain (s : Statement) (tokens : List Token) : Except ParseError Declaration := do
  let (name, rest) ← objectName s tokens
  let rest := if rest.head?.any (·.isKeyword "AS") then rest.drop 1 else rest
  let base := rest.take (Run.topIndex (·.isAnyKeyword baseTypeEnds) 0 0 rest)
  if base.isEmpty then throw (.malformed (.noBaseType name) s.position (snippet s.text))
  else return .domain ⟨name, Run.typeText s.text base⟩

def ofStatement (s : Statement) : Except ParseError Declaration := do
  let tokens ← significantTokens s.text s.position
  match StatementKind.split tokens with
  | (.table, rest) => ofTable s rest
  | (.type, rest) => ofType s rest
  | (.domain, rest) => ofDomain s rest
  | (.function, _) => return .function s
  | (.other, _) => return .other

def function? : Declaration → Option Statement
  | .function statement => some statement
  | _ => none

end Declaration

namespace Catalog

def notice (name : Text) : Registration → List Diagnostic
  | .ambiguous _ bare => [.ambiguousName name bare]
  | _ => []

/-- Enters a declaration, and tells what was skipped and what became ambiguous. -/
def declare (c : Catalog) : Declaration → Catalog × List Diagnostic
  | .table table skipped =>
    let (tables, outcome) := c.tables.register table
    ({ c with tables },
      skipped.map (.skippedFragment ("table " ++ table.name)) ++ notice table.name outcome)
  | .composite composite skipped =>
    let (composites, outcome) := c.composites.register composite
    ({ c with composites },
      skipped.map (.skippedFragment ("type " ++ composite.name)) ++
        notice composite.name outcome)
  | .enum enum =>
    let (enums, outcome) := c.enums.register enum
    ({ c with enums }, notice enum.name outcome)
  | .domain domain =>
    let (domains, outcome) := c.domains.register domain
    ({ c with domains }, notice domain.name outcome)
  | .function _ | .other => (c, [])

def declareAll (c : Catalog) : List Declaration → Catalog × List Diagnostic
  | [] => (c, [])
  | d :: rest =>
    let (c, first) := c.declare d
    let (c, more) := c.declareAll rest
    (c, first ++ more)

end Catalog

/-- The catalog and the functions of the source texts, and what was met on the way. -/
structure Schema where
  catalog : Catalog := {}
  functions : List Signature := []
  diagnostics : List Diagnostic := []
  deriving DecidableEq, Repr

/--
Reads a text with functions and, before it, a text with shared types, whose functions are left
out.
-/
def Schema.parse (functions : Text) (shared : Option Text) : Except ParseError Schema := do
  let sharedStatements ← (shared.map segment).getD (.ok [])
  let statements ← segment functions
  let sharedDeclarations ← sharedStatements.mapM Declaration.ofStatement
  let declarations ← statements.mapM Declaration.ofStatement
  let (catalog, diagnostics) := Catalog.declareAll {} (sharedDeclarations ++ declarations)
  let signatures ← (declarations.filterMap Declaration.function?).mapM (Signature.parse · catalog)
  return ⟨catalog, signatures, diagnostics⟩

end Bindery
