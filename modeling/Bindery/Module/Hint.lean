import Bindery.Module.Imports
import Bindery.Type.Value

namespace Bindery

/-- A type hint. -/
inductive Hint where
  | none
  | any
  | scalar (scalar : Scalar)
  | named (className : Text)
  | list (item : Hint)
  | optional (item : Hint)
  deriving DecidableEq, Repr

namespace Hint

def render : Hint → Text
  | .none => "None"
  | .any => "Any"
  | .scalar s => s.pythonType
  | .named className => className
  | .list item => "List[" ++ item.render ++ "]"
  | .optional item => "Optional[" ++ item.render ++ "]"

/-- The imports that a hint needs; the classes of the module itself need none. -/
def imports : Hint → Imports
  | .none | .named _ => {}
  | .any => .ofNames "typing" ["Any"]
  | .scalar s => { names := s.import?.toList } ++ Imports.ofNames "typing" s.typingNames
  | .list item => Imports.ofNames "typing" ["List"] ++ item.imports
  | .optional item => Imports.ofNames "typing" ["Optional"] ++ item.imports

end Hint

namespace ValueType

def hint : ValueType → Hint
  | .scalar s => .scalar s
  | .enum ref => .named ref.className
  | .record className => .named className
  | .array item => .list item.hint
  | .unknown _ => .any

/-- The hint for values that may be missing; a value of any type may be missing anyway. -/
def hintFor (t : ValueType) (isOptional : Bool) : Hint :=
  if isOptional && !t.isUnknown then .optional t.hint else t.hint

end ValueType

end Bindery
