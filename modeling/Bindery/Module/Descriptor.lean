import Bindery.Module.Literal
import Bindery.Type.Value

namespace Bindery

/-- What the decoder does with a value: nothing, or what the kind of the value asks for. -/
inductive Descriptor where
  | plain
  | scalar (converter : Converter)
  | enum (sqlName : Text)
  | record (className : Text)
  | list (item : Descriptor)
  deriving DecidableEq, Repr

def Descriptor.render : Descriptor → Text
  | .plain => "None"
  | .scalar converter => "('scalar', " ++ Module.quote converter.name ++ ")"
  | .enum sqlName => "('enum', " ++ Module.quote sqlName ++ ")"
  | .record className => "('record', " ++ className ++ ")"
  | .list item => "('list', " ++ item.render ++ ")"

namespace ValueType

def descriptor : ValueType → Descriptor
  | .scalar s => (s.converter?.map .scalar).getD .plain
  | .enum ref => .enum ref.sqlName
  | .record className => .record className
  | .array item => .list item.descriptor
  | .unknown _ => .plain

def describe? (t : ValueType) : Option Text :=
  if t.descriptor = .plain then none else some t.descriptor.render

/-- Whether a result of this type goes through the decoder; the driver converts all else. -/
def needsDecoding (t : ValueType) : Bool :=
  t.enumRef?.isSome || t.recordClass?.isSome

def converter? : ValueType → Option Converter
  | .scalar s => s.converter?
  | .array item => item.converter?
  | .enum _ | .record _ | .unknown _ => none

end ValueType

end Bindery
