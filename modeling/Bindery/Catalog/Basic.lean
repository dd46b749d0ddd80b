import Bindery.Catalog.SymbolTable
import Bindery.Column

namespace Bindery

/-- A table with its columns. -/
structure Table where
  name : Text
  columns : List Column
  deriving DecidableEq, Repr

/-- A composite type with its fields. -/
structure Composite where
  name : Text
  fields : List Column
  deriving DecidableEq, Repr

/-- An enum type with its labels. -/
structure EnumType where
  name : Text
  labels : List Text
  deriving DecidableEq, Repr

/-- A domain over a base type. -/
structure Domain where
  name : Text
  baseType : Text
  deriving DecidableEq, Repr

/-- Adds the columns whose names are not there yet, up to the case of ASCII letters. -/
def mergeColumns (old new : List Column) : List Column :=
  new.foldl
    (fun columns c =>
      if columns.any fun d => Text.sameIgnoringCase d.name c.name then columns else columns ++ [c])
    old

def mergeLabels (old new : List Text) : List Text :=
  new.foldl (fun labels l => if labels.contains l then labels else labels ++ [l]) old

instance : Entry Table where
  name := Table.name
  merge old new := { old with columns := mergeColumns old.columns new.columns }
  name_merge _ _ := rfl

instance : Entry Composite where
  name := Composite.name
  merge old new := { old with fields := mergeColumns old.fields new.fields }
  name_merge _ _ := rfl

instance : Entry EnumType where
  name := EnumType.name
  merge old new := { old with labels := mergeLabels old.labels new.labels }
  name_merge _ _ := rfl

instance : Entry Domain where
  name := Domain.name
  merge old _ := old
  name_merge _ _ := rfl

/-- All that has been declared. -/
structure Catalog where
  tables : SymbolTable Table := {}
  composites : SymbolTable Composite := {}
  enums : SymbolTable EnumType := {}
  domains : SymbolTable Domain := {}
  deriving DecidableEq, Repr

/-- Whether a name denotes anything declared. -/
def Catalog.knows (c : Catalog) (name : Text) : Bool :=
  c.tables.contains name || c.composites.contains name || c.enums.contains name ||
    c.domains.contains name

end Bindery
