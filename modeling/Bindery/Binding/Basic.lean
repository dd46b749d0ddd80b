import Bindery.Signature
import Bindery.Type.Value

namespace Bindery

/-- A member of an enum class. -/
structure EnumMember where
  name : Text
  label : Text
  deriving DecidableEq, Repr

/-- An enum class, its members in the order of the labels. -/
structure EnumClass where
  sqlName : Text
  className : Text
  members : List EnumMember
  deriving DecidableEq, Repr

/-- The member for a label, compared exactly first and then without regard to ASCII case. -/
def EnumClass.member? (e : EnumClass) (label : Text) : Option EnumMember :=
  (e.members.find? fun m => m.label == label).or
    (e.members.find? fun m => Text.sameIgnoringCase m.label label)

/-- What a record class describes. -/
inductive RecordOrigin where
  | table
  | composite
  | result
  deriving DecidableEq, Repr

/-- A field of a record class. -/
structure Field where
  name : Text
  identifier : Text
  sqlType : Text
  type : ValueType
  isOptional : Bool
  hasMeaningfulDefault : Bool
  deriving DecidableEq, Repr

/-- Whether the attribute is spelled otherwise than the column. -/
def Field.isRenamed (f : Field) : Bool :=
  f.identifier != f.name

/-- A record class with its fields in declared order. -/
structure RecordClass where
  className : Text
  sqlName : Text
  origin : RecordOrigin
  fields : List Field
  deriving DecidableEq, Repr

namespace RecordClass

def references (r : RecordClass) : List Text :=
  r.fields.filterMap fun f => f.type.recordClass?

def hasRenamedFields (r : RecordClass) : Bool :=
  r.fields.any Field.isRenamed

end RecordClass

/-- A parameter of a wrapper. -/
structure Argument where
  sqlName : Option Text
  identifier : Text
  sqlType : Text
  type : ValueType
  isOptional : Bool
  hasSqlDefault : Bool
  default : Option Text
  isVariadic : Bool
  deriving DecidableEq, Repr

/-- What a wrapper returns: nothing, a value, rows of a record class, or rows as they come. -/
inductive ResultShape where
  | void
  | value (type : ValueType)
  | record (className : Text)
  | rows
  deriving DecidableEq, Repr

/-- A wrapper for a function. -/
structure Wrapper where
  callName : Text
  name : Text
  identifier : Text
  doc : Option Text
  params : List Argument
  returns : ReturnSpec
  result : ResultShape
  deriving DecidableEq, Repr

namespace Wrapper

def isSet (w : Wrapper) : Bool :=
  w.returns.isSet

/-- Whether the rows are decoded one by one into records or dictionaries. -/
def hasRows (w : Wrapper) : Bool :=
  match w.result with
  | .record _ | .rows => true
  | .void | .value _ => false

def isTableShaped (w : Wrapper) : Bool :=
  w.isSet || w.hasRows

def hasJsonParams (w : Wrapper) : Bool :=
  w.params.any fun p => p.type.isJson

end Wrapper

/-- All that is generated, and all that was reported on the way. -/
structure Binding where
  enums : List EnumClass := []
  records : List RecordClass := []
  wrappers : List Wrapper := []
  diagnostics : List Diagnostic := []
  deriving DecidableEq, Repr

namespace Binding

def record? (b : Binding) (className : Text) : Option RecordClass :=
  b.records.find? fun r => r.className == className

def enum? (b : Binding) (className : Text) : Option EnumClass :=
  b.enums.find? fun e => e.className == className

def hasJsonParams (b : Binding) : Bool :=
  b.wrappers.any Wrapper.hasJsonParams

end Binding

end Bindery
