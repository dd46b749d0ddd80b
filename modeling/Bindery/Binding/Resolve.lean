import Bindery.Binding.Basic

namespace Bindery

/-- The classes of the catalog entries, by index; a table may have none. -/
structure ClassNames where
  enums : List EnumRef
  tables : List (Option Text)
  composites : List Text

namespace ClassNames

/-- The type of the values of a target; an entry without a class has none. -/
def typeOf? (names : ClassNames) : Target → Option ValueType
  | .enum index => (names.enums[index]?).map .enum
  | .composite index => (names.composites[index]?).map .record
  | .table index => ((names.tables[index]?).join).map .record
  | .scalar scalar => some (.scalar scalar)

def resolve (names : ClassNames) (catalog : Catalog) (raw : Text) : ValueType :=
  let found := catalog.lookup raw
  ValueType.arrayOf found.dimensions ((found.target.bind names.typeOf?).getD (.unknown raw))

/-- The record class of a type as written that must denote a table or a composite type. -/
def recordClass? (names : ClassNames) (catalog : Catalog) (raw : Text) : Option Text :=
  match catalog.lookup raw with
  | ⟨some (.table index), 0⟩ => (names.tables[index]?).join
  | ⟨some (.composite index), 0⟩ => names.composites[index]?
  | _ => none

end ClassNames

end Bindery
