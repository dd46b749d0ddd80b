import Bindery.Module.Support
import Bindery.Module.Wrapper

namespace Bindery

namespace EnumClass

/-- An enum class, one line for each member. -/
def render (e : EnumClass) : Text :=
  let body : Text :=
    if e.members.isEmpty then Module.indent ++ "pass\n"
    else e.members.flatMap fun m =>
      Module.indent ++ m.name ++ " = " ++ Module.quote m.label ++ "\n"
  "class " ++ e.className ++ "(Enum):\n" ++ body

end EnumClass

def Field.hint (f : Field) : Hint :=
  f.type.hintFor f.isOptional

namespace RecordClass

/-- What the docstring of a record class says. -/
def summary (r : RecordClass) : Text :=
  match r.origin with
  | .table => "Row of table " ++ r.sqlName ++ "."
  | .composite => "Composite type " ++ r.sqlName ++ "."
  | .result => "Result row of " ++ r.sqlName ++ "()."

/-- A record class, one line for each field. -/
def render (r : RecordClass) : Text :=
  let fields : Text := r.fields.flatMap fun f =>
    Module.indent ++ f.identifier ++ ": " ++ f.hint.render ++ "\n"
  "@dataclass\nclass " ++ r.className ++ ":\n" ++ Module.docstring r.summary Module.indent ++
    (if r.fields.isEmpty then [] else ['\n']) ++ fields

def imports (r : RecordClass) : Imports :=
  Imports.ofNames "dataclasses" ["dataclass"] ++
    Imports.concat (r.fields.map fun f => f.hint.imports)

end RecordClass

/-- A block of a module. -/
inductive Block where
  | enumClass (enum : EnumClass)
  | recordClass (record : RecordClass)
  | support (part : SupportSection)
  | registrations (calls : List RegistrationCall)
  | wrapper (code : WrapperCode)
  | manifest (names : List Text)
  deriving DecidableEq, Repr

namespace Block

/-- The list of the names that the module exports. -/
def renderManifest (names : List Text) : Text :=
  let listed : Text := names.flatMap fun name => Module.indent ++ Module.quote name ++ ",\n"
  if names.isEmpty then "__all__ = []\n" else "__all__ = [\n" ++ listed ++ "]\n"

def render : Block → Text
  | .enumClass enum => enum.render
  | .recordClass record => record.render
  | .support part => part.render
  | .registrations calls => calls.flatMap RegistrationCall.render
  | .wrapper code => code.render
  | .manifest names => renderManifest names

def imports : Block → Imports
  | .enumClass _ => .ofNames "enum" ["Enum"]
  | .recordClass record => record.imports
  | .support part => part.imports
  | .wrapper code => code.imports
  | .registrations _ | .manifest _ => {}

end Block

end Bindery
