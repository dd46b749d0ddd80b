import Bindery.Text.Basic

namespace Bindery

/-- What stands in for the rows of a table that was never declared. -/
inductive Fallback where
  | untypedRows
  | outputParameters
  deriving DecidableEq, Repr

def Fallback.describe : Fallback → Text
  | .untypedRows => "untyped rows"
  | .outputParameters => "the function's output parameters"

/-- A condition worth telling the user about. -/
inductive Diagnostic where
  /-- A type reference names nothing that is known. -/
  | unknownType (sqlType context : Text)
  /-- A function returns rows of an undeclared table. -/
  | missingSchema (typeName function : Text) (fallback : Fallback)
  /-- A generated name was taken and another one is used. -/
  | nameCollision (wanted given subject : Text)
  /-- A definition could not be understood and was left out. -/
  | skippedFragment (context fragment : Text)
  /-- A bare name is shared by two schemas. -/
  | ambiguousName (qualified bare : Text)
  /-- Wrappers call support code that was left out. -/
  | supportOmitted (wrappers : Nat)
  deriving DecidableEq, Repr

def Diagnostic.message : Diagnostic → Text
  | .unknownType sqlType context =>
    "unknown SQL type '" ++ sqlType ++ "' in " ++ context ++ "; using an opaque placeholder"
  | .missingSchema typeName function fallback =>
    "schema for '" ++ typeName ++ "' returned by function '" ++ function ++ "' not found; using " ++
      fallback.describe
  | .nameCollision wanted given subject =>
    "generated name '" ++ wanted ++ "' for " ++ subject ++ " is already taken; using '" ++ given ++
      "'"
  | .skippedFragment context fragment =>
    "skipped unparseable definition in " ++ context ++ ": " ++ fragment
  | .ambiguousName qualified bare =>
    "'" ++ qualified ++ "' shares bare name '" ++ bare ++ "' with another schema; '" ++ bare ++
      "' keeps its first meaning"
  | .supportOmitted wrappers =>
    "runtime support was omitted but " ++ Text.ofNat wrappers ++
      " wrapper(s) use its decoding helpers"

end Bindery
