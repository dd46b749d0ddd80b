import Bindery.Schema
import Bindery.SchemaError

namespace Bindery

/-- The planned result of a function. -/
inductive Plan where
  | void
  | value (raw : Text)
  | record (raw : Text)
  | explicit (columns : List Column)
  | rows
  deriving DecidableEq, Repr

namespace Plan

/-- Whether a type as written denotes single rows of a declared table or composite type. -/
def denotesRows (catalog : Catalog) (raw : Text) : Bool :=
  match catalog.lookup raw with
  | ⟨some (.table _), 0⟩ | ⟨some (.composite _), 0⟩ => true
  | _ => false

/--
Plans the result of a function. Rows of a type that is not declared are an error if the reading is
strict; otherwise the output parameters or untyped rows stand in.
-/
def ofSignature (catalog : Catalog) (strict : Bool) (f : Signature) :
    Except SchemaError (Plan × List Diagnostic) :=
  match f.returns.kind with
  | .void => .ok (.void, [])
  | .scalar raw | .enum raw => .ok (.value raw, [])
  | .tableRow raw | .composite raw => .ok (.record raw, [])
  | .explicit columns => .ok (.explicit columns, [])
  | .tableRows raw =>
    if denotesRows catalog raw then .ok (.record raw, [])
    else if strict then .error (.missingSchema raw f.name)
    else
      match outputColumns f.params with
      | [] => .ok (.rows, [.missingSchema raw f.name .untypedRows])
      | columns => .ok (.explicit columns, [.missingSchema raw f.name .outputParameters])

def types : Plan → List Text
  | .value raw | .record raw => [raw]
  | .explicit columns => columns.map Column.sqlType
  | .void | .rows => []

end Plan

namespace Catalog

def columnTypes (c : Catalog) (table : Nat) : List Text :=
  ((c.tables.entries[table]?).map fun t => t.columns.map Column.sqlType).getD []

/--
The tables among `fresh` that the types refer to, directly or through the columns of tables
reached before.
-/
def reach (c : Catalog) (fresh : List Nat) (types : List Text) : List Nat :=
  match types with
  | [] => []
  | raw :: rest =>
    match (c.lookup raw).target with
    | some (.table index) =>
      if h : index ∈ fresh then
        have : (fresh.erase index).length < fresh.length := by
          have := List.length_erase_of_mem h
          have := List.length_pos_of_mem h
          omega
        index :: c.reach (fresh.erase index) (c.columnTypes index ++ rest)
      else c.reach fresh rest
    | _ => c.reach fresh rest
termination_by (fresh.length, types.length)

end Catalog

namespace Schema

/-- The types from which tables are reached: those of parameters, results and composite fields. -/
def rootTypes (s : Schema) (plans : List Plan) : List Text :=
  (s.functions.zip plans).flatMap (fun (f, plan) => f.inputs.map Parameter.sqlType ++ plan.types) ++
    s.catalog.composites.entries.flatMap fun c => c.fields.map Column.sqlType

def reachableTables (s : Schema) (plans : List Plan) : List Nat :=
  s.catalog.reach (List.range s.catalog.tables.entries.length) (s.rootTypes plans)

end Schema

end Bindery
