import Bindery.Diagnostic
import Bindery.Type.Scalar

namespace Bindery

/-- A generated enum class, and the key of the enum that it stands for. -/
structure EnumRef where
  sqlName : Text
  className : Text
  deriving DecidableEq, Repr

/-- The type of a column, a parameter or a result; a reference to nothing known keeps its text. -/
inductive ValueType where
  | scalar (scalar : Scalar)
  | enum (ref : EnumRef)
  | record (className : Text)
  | array (item : ValueType)
  | unknown (raw : Text)
  deriving DecidableEq, Repr

namespace ValueType

/-- The type inside all array dimensions. -/
def element : ValueType → ValueType
  | .array item => item.element
  | t => t

def arrayOf : Nat → ValueType → ValueType
  | 0, t => t
  | n + 1, t => .array (arrayOf n t)

def recordClass? (t : ValueType) : Option Text :=
  match t.element with
  | .record className => some className
  | _ => none

def enumRef? (t : ValueType) : Option EnumRef :=
  match t.element with
  | .enum ref => some ref
  | _ => none

def isUnknown : ValueType → Bool
  | .unknown _ => true
  | _ => false

def isJson : ValueType → Bool
  | .scalar .json => true
  | _ => false

/-- What is reported about a type that stands in the given context. -/
def notices (context : Text) (t : ValueType) : List Diagnostic :=
  match t.element with
  | .unknown raw => [.unknownType raw context]
  | _ => []

end ValueType

end Bindery
