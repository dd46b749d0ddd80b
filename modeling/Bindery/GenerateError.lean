import Bindery.File.Basic
import Bindery.SchemaError
import Bindery.Text.Sorted

namespace Bindery

/-- Why no module can be generated. -/
inductive GenerateError where
  | parse (error : ParseError)
  | schema (error : SchemaError)
  | file (error : FileError)
  /-- Record classes that embed each other. -/
  | cycle (names : List Text)
  /-- A wrapper with the name of a class. -/
  | shadowed (identifier callName : Text)
  | other (complaint : Text)
  deriving DecidableEq, Repr

namespace GenerateError

def ofCycle (names : List Text) : GenerateError :=
  .cycle (Text.sorted names)

def message : GenerateError → Text
  | .parse error => "SQL parse error: " ++ error.message
  | .schema error => "schema error: " ++ error.message
  | .file error => "IO error: " ++ error.message
  | .cycle names => "dependency cycle between declarations: " ++ Text.join " -> " names
  | .shadowed identifier callName =>
    "generation error: wrapper '" ++ identifier ++ "' for function " ++ callName ++
      " would shadow the class of the same name"
  | .other complaint => "generation error: " ++ complaint

end GenerateError

end Bindery
