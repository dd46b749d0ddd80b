import Bindery.Command.Arguments
import Bindery.Config
import Bindery.File.Tree
import Bindery.Module.Generate

namespace Bindery

/-- Generates a module from files. The name of the file with the functions stands in the header,
unless the options name a source. -/
def generateFromFiles (read : Text → Except FileError Text) (functions : Text)
    (shared : Option Text) (options : Options) : Except GenerateError Generated := do
  let functionsText ← (read functions).mapError .file
  let sharedText ← (shared.mapM read).mapError .file
  generate functionsText sharedText
    { options with sourceName := options.sourceName.or (Path.fileName? functions) }

/-- Why a call fails. -/
inductive CallError where
  | unreadableConfig (path : Text)
  | invalidConfig (path : Text)
  | generation (functions : Text) (cause : GenerateError)
  | noTemporaryFile (directory : Text)
  | unwritable (path : Text)
  deriving DecidableEq, Repr

namespace CallError

def message : CallError → Text
  | .unreadableConfig path => "failed to read config " ++ path
  | .invalidConfig path => "invalid config " ++ path
  | .generation functions _ => "failed to generate bindings from " ++ functions
  | .noTemporaryFile directory => "failed to create a temporary file in " ++ directory
  | .unwritable path => "failed to write " ++ path

def cause? : CallError → Option GenerateError
  | .generation _ cause => some cause
  | _ => none

end CallError

namespace Call

def inputs (c : Call) : List Text :=
  c.config.toList ++ [c.functions] ++ c.schema.toList

/-- The options of the configuration file with the switches on top. -/
def options (c : Call) (read : Text → Except FileError Text) : Except CallError Options :=
  match c.config with
  | none => .ok (({} : Options).merge c.switches)
  | some path =>
    match read path with
    | .error _ => .error (.unreadableConfig path)
    | .ok text =>
      match Config.parse? text with
      | none => .error (.invalidConfig path)
      | some options => .ok (options.merge c.switches)

def generate (c : Call) (read : Text → Except FileError Text) : Except CallError Generated := do
  let options ← c.options read
  (generateFromFiles read c.functions c.schema options).mapError (.generation c.functions)

/-- Why the output of a call cannot be written. -/
def writeError (c : Call) : WriteError → CallError
  | .noDirectory => .noTemporaryFile (Path.parent c.output)
  | .notReplaceable => .unwritable c.output

/-- Runs a call on the files of a working directory; a call that fails leaves them alone. -/
def run (c : Call) (files : FileTree) : Except CallError (Generated × FileTree) := do
  let generated ← c.generate files.read
  let written ← (files.write c.output generated.code).mapError c.writeError
  return (generated, written)

end Call

end Bindery
