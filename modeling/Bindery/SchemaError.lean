import Bindery.ParseError

namespace Bindery

/-- A source text that cannot be read, or rows of a type that was never declared. -/
inductive SchemaError where
  | parse (error : ParseError)
  | missingSchema (typeName function : Text)
  deriving DecidableEq, Repr

def SchemaError.message : SchemaError → Text
  | .parse error => "parse error: " ++ error.message
  | .missingSchema typeName function =>
    "schema for type '" ++ typeName ++ "' returned by function '" ++ function ++
      "' was not found; declare it or pass a schema file (use allow-missing-schemas to generate " ++
      "a placeholder)"

end Bindery
