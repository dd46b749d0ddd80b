import Bindery.Fragment
import Bindery.Token.Run

namespace Bindery

/-- A column: its name, its type as written with single spaces, its default as written. -/
structure Column where
  name : Text
  sqlType : Text
  nullable : Bool := true
  default : Option Text := none
  deriving DecidableEq, Repr

/-- Whether a default is the keyword `NULL`, possibly in parentheses and with a cast. -/
def isNullLiteral (value : Text) : Bool :=
  let head := Text.trim (value.take ((Text.find? "::" value).getD value.length))
  let opened := head.dropWhile (· == '(')
  let inner := (opened.reverse.dropWhile (· == ')')).reverse
  Text.sameIgnoringCase (Text.trim inner) "NULL"

def Column.hasMeaningfulDefault (c : Column) : Bool :=
  c.default.any fun value => !isNullLiteral value

/-- What one definition of a list declares. -/
inductive Item where
  | column (column : Column)
  | primaryKey (names : List Text)
  | constraint
  deriving DecidableEq, Repr

namespace Item

def defaultEnds : List Text :=
  ["CONSTRAINT", "NOT", "NULL", "PRIMARY", "UNIQUE", "REFERENCES", "CHECK", "COLLATE",
    "GENERATED"]

def typeEnds : List Text :=
  "DEFAULT" :: defaultEnds

/-- Whether a definition is a constraint of the table or a `LIKE` clause, and no column whose name
happens to be such a keyword. -/
def isTableConstraint : List Token → Bool
  | first :: next :: rest =>
    if first.isAnyKeyword ["UNIQUE", "CHECK", "EXCLUDE"] then
      next.isSymbol '(' || next.isAnyKeyword ["USING", "NULLS"]
    else if first.isKeyword "FOREIGN" then next.isKeyword "KEY"
    else if first.isKeyword "LIKE" then
      next.isIdentifier && rest.head?.all (·.isAnyKeyword ["INCLUDING", "EXCLUDING"])
    else false
  | _ => false

/-- The clauses behind the type of a column, read into the column; `depth` parentheses and brackets
are open before them. -/
def readClauses (source : Text) (depth : Nat) (tokens : List Token) (c : Column) : Column :=
  match tokens with
  | [] => c
  | t :: rest =>
    if t.isKeyword "NOT" && rest.head?.any (·.isKeyword "NULL") then
      readClauses source depth (rest.drop 1) { c with nullable := false }
    else if t.isKeyword "PRIMARY" then
      readClauses source depth rest { c with nullable := false }
    else if t.isKeyword "DEFAULT" then
      let n := Run.topIndex (·.isAnyKeyword defaultEnds) depth 1 rest
      let value := rest.take n
      let c := if value.isEmpty then c else { c with default := some (Run.covered source value) }
      readClauses source (Run.depth depth value) (rest.drop n) c
    else if t.isKeyword "GENERATED" then
      let n := Run.topIndex (fun t => t.isAnyKeyword defaultEnds && !t.isKeyword "GENERATED")
        depth 0 rest
      let clause := rest.take n
      let c := if clause.any (·.isKeyword "IDENTITY") then { c with nullable := false } else c
      readClauses source (Run.depth depth clause) (rest.drop n) c
    else readClauses source (Run.depth depth [t]) rest c
termination_by tokens.length

/-- A column definition: a name, a type and clauses. -/
def column? (source : Text) (tokens : List Token) : Option Column :=
  match tokens with
  | [] => none
  | first :: rest =>
    let n := Run.topIndex (·.isAnyKeyword typeEnds) 0 0 rest
    if first.isIdentifier && n != 0 then
      some (readClauses source 0 (rest.drop n) ⟨first.name, Run.typeText source (rest.take n),
        true, none⟩)
    else none

/-- What the tokens of a definition declare, if they can be understood. -/
def ofTokens? (source : Text) (tokens : List Token) : Option Item :=
  let named := tokens.head?.any (·.isKeyword "CONSTRAINT")
  let rest := if named then tokens.drop 2 else tokens
  match rest with
  | [] => none
  | first :: _ =>
    if first.isKeyword "PRIMARY" then
      let list := rest.dropWhile fun t => !t.isSymbol '('
      some (.primaryKey ((list.filter Token.isIdentifier).map Token.name))
    else if isTableConstraint rest || named then some .constraint
    else (column? source rest).map .column

end Item

/-- What a fragment of a list declares, if it can be understood. -/
def Fragment.item? (f : Fragment) : Except ParseError (Option Item) := do
  let tokens ← significantTokens f.text f.position
  return Item.ofTokens? f.text tokens

/-- A list of columns, and the fragments of it that could not be understood. -/
structure ColumnList where
  columns : List Column
  skipped : List Text
  deriving DecidableEq, Repr

namespace ColumnList

/-- The list that the fragments with their meanings give; a primary key makes its columns
non-nullable. -/
def ofItems (items : List (Fragment × Option Item)) : ColumnList :=
  let keys := items.flatMap fun
    | (_, some (.primaryKey names)) => names
    | _ => []
  let columns := items.filterMap fun
    | (_, some (.column column)) => some column
    | _ => none
  let skipped := items.filterMap fun
    | (fragment, none) => some fragment.text
    | _ => none
  ⟨columns.map fun c =>
    if keys.any (Text.sameIgnoringCase · c.name) then { c with nullable := false } else c, skipped⟩

/-- Reads the text between the parentheses of a list of columns. -/
def parse (body : Text) (origin : Position) : Except ParseError ColumnList := do
  let fragments ← splitTopLevel body origin
  let items ← fragments.mapM fun f => do
    let item ← f.item?
    return (f, item)
  return ofItems items

end ColumnList

end Bindery
