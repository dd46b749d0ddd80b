import Bindery.Options
import Bindery.Text.Basic

namespace Bindery

/-- What ends the reading of arguments without a call. -/
inductive Interruption where
  | help
  | version
  | unknownArgument
  /-- A value is missing or empty. -/
  | invalidValue
  | repeatedArgument
  /-- A value is given to a switch. -/
  | unexpectedValue
  | missingArgument
  deriving DecidableEq, Repr

/-- What a call of the command asks for. -/
structure Call where
  functions : Text
  output : Text
  schema : Option Text := none
  config : Option Text := none
  /-- What the switches set. -/
  switches : Options := {}
  deriving DecidableEq, Repr

/-- The arguments that are on or off. -/
inductive Switch where
  | verbose
  | omitSupport
  | allowMissingSchemas
  deriving DecidableEq, Repr

/-- The arguments that have a path. -/
inductive Slot where
  | functions
  | output
  | schema
  | config
  deriving DecidableEq, Repr

/-- What an option stands for. -/
inductive OptionKind where
  | help
  | version
  | switch (switch : Switch)
  | slot (slot : Slot)
  deriving DecidableEq, Repr

namespace OptionKind

def longNames : List (Text × OptionKind) :=
  [("help", .help), ("version", .version), ("schema-file", .slot .schema),
    ("config", .slot .config), ("verbose", .switch .verbose), ("no-helpers", .switch .omitSupport),
    ("omit-runtime", .switch .omitSupport),
    ("allow-missing-schemas", .switch .allowMissingSchemas)]

/-- The option with a long name, which has to be written in full. -/
def ofLong? (name : Text) : Option OptionKind :=
  longNames.lookup name

def ofShort? : Char → Option OptionKind
  | 'h' => some .help
  | 'V' => some .version
  | 's' => some (.slot .schema)
  | 'v' => some (.switch .verbose)
  | _ => none

end OptionKind

/-- The arguments read so far. -/
structure Reading where
  switches : List Switch := []
  paths : List (Slot × Text) := []
  /-- The path that has not been looked at yet, or the slot that still waits for its path. -/
  pending : Option (Slot × Option Text) := none
  /-- The positional arguments still to come. -/
  positionals : List Slot := [.functions, .output]
  /-- Whether all further arguments are positional. -/
  optionsEnded : Bool := false
  deriving DecidableEq, Repr

namespace Reading

def fill (r : Reading) (slot : Slot) (path : Text) : Except Interruption Reading :=
  if (r.paths.lookup slot).isSome then .error .repeatedArgument
  else if path.isEmpty then .error .invalidValue
  else .ok { r with paths := r.paths ++ [(slot, path)] }

def settle (r : Reading) : Except Interruption Reading :=
  match r.pending with
  | none => .ok r
  | some (_, none) => .error .invalidValue
  | some (slot, some path) => { r with pending := none }.fill slot path

def take (r : Reading) (kind : OptionKind) : Except Interruption Reading := do
  let r ← r.settle
  match kind with
  | .help => throw .help
  | .version => throw .version
  | .switch switch =>
    if r.switches.contains switch then throw .repeatedArgument
    else return { r with switches := r.switches ++ [switch] }
  | .slot slot => return { r with pending := some (slot, none) }

def takeWith (r : Reading) (kind : OptionKind) (value : Text) : Except Interruption Reading :=
  match kind with
  | .slot slot => do
    let r ← r.settle
    r.fill slot value
  | _ => .error .unexpectedValue

def readPositional (r : Reading) (path : Text) : Except Interruption Reading :=
  match r.positionals with
  | [] => .error .unknownArgument
  | slot :: rest => do
    let r ← r.settle
    return { r with pending := some (slot, some path), positionals := rest }

def readLong (r : Reading) (option : Text) : Except Interruption Reading :=
  let name := option.takeWhile (· != '=')
  match OptionKind.ofLong? name, option.drop name.length with
  | none, _ => .error .unknownArgument
  | some kind, [] => r.take kind
  | some kind, _ :: value => r.takeWith kind value

/-- Reads short options that stand together, without their hyphen. -/
def readShort (r : Reading) : Text → Except Interruption Reading
  | [] => .ok r
  | c :: rest =>
    match OptionKind.ofShort? c, rest with
    | none, _ => .error .unknownArgument
    | some (.slot slot), '=' :: value => r.takeWith (.slot slot) value
    | some (.slot slot), first :: value => r.takeWith (.slot slot) (first :: value)
    | some kind, _ => do
      let r ← r.take kind
      r.readShort rest

def read (r : Reading) (argument : Text) : Except Interruption Reading :=
  if r.optionsEnded then r.readPositional argument
  else
    match argument with
    | ['-', '-'] => .ok { r with optionsEnded := true }
    | '-' :: '-' :: option => r.readLong option
    | '-' :: c :: options => r.readShort (c :: options)
    | _ =>
      match r.pending with
      | some (slot, none) => .ok { r with pending := some (slot, some argument) }
      | _ => r.readPositional argument

/-- Takes the configuration file from the environment, if no argument names one. -/
def withEnvironment (r : Reading) (config : Option Text) : Except Interruption Reading :=
  match r.paths.lookup .config, config with
  | none, some path => r.fill .config path
  | _, _ => .ok r

/-- The call that the arguments describe, if no positional argument is missing. -/
def call (r : Reading) : Except Interruption Call :=
  match r.paths.lookup .functions, r.paths.lookup .output with
  | some functions, some output =>
    .ok {
      functions, output
      schema := r.paths.lookup .schema
      config := r.paths.lookup .config
      switches := {
        omitSupport := r.switches.contains .omitSupport
        allowMissingSchemas := r.switches.contains .allowMissingSchemas
        verbose := r.switches.contains .verbose } }
  | _, _ => .error .missingArgument

end Reading

/-- Reads all arguments, with the configuration file that the environment names. -/
def Call.parse (arguments : List Text) (config : Option Text) : Except Interruption Call := do
  let reading ← arguments.foldlM Reading.read {}
  let settled ← reading.settle
  let complete ← settled.withEnvironment config
  complete.call

end Bindery
