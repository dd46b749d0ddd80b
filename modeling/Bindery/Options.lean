import Bindery.Text.Basic

namespace Bindery

/-- What a user can choose. -/
structure Options where
  /-- Leave the support code out. -/
  omitSupport : Bool := false
  /-- Let something stand in for the rows of undeclared types. -/
  allowMissingSchemas : Bool := false
  verbose : Bool := false
  /-- The name of the input in the header of the module. -/
  sourceName : Option Text := none
  deriving DecidableEq, Repr

/-- The value of a setting. -/
inductive Setting where
  | flag (value : Bool)
  | text (value : Text)
  | null
  /-- A value of a kind that no option takes. -/
  | other
  deriving DecidableEq, Repr

namespace Options

/-- Whether rows of undeclared types are refused. -/
def strict (o : Options) : Bool :=
  !o.allowMissingSchemas

/-- Adds further options: a flag of either is set, and the later source name wins. -/
def merge (o later : Options) : Options :=
  { omitSupport := o.omitSupport || later.omitSupport
    allowMissingSchemas := o.allowMissingSchemas || later.allowMissingSchemas
    verbose := o.verbose || later.verbose
    sourceName := later.sourceName.or o.sourceName }

/-- Applies one setting; an unknown key or a value of the wrong kind is refused. -/
def set? (o : Options) (key : Text) (value : Setting) : Option Options :=
  if key = ("omit-runtime" : Text) then
    match value with
    | .flag b => some { o with omitSupport := b }
    | _ => none
  else if key = ("allow-missing-schemas" : Text) then
    match value with
    | .flag b => some { o with allowMissingSchemas := b }
    | _ => none
  else if key = ("verbose" : Text) then
    match value with
    | .flag b => some { o with verbose := b }
    | _ => none
  else if key = ("source-name" : Text) then
    match value with
    | .text t => some { o with sourceName := some t }
    | .null => some { o with sourceName := none }
    | _ => none
  else none

/-- The options that settings give; what is not set has its default. -/
def ofSettings? (settings : List (Text × Setting)) : Option Options :=
  settings.foldlM (fun o (key, value) => o.set? key value) {}

end Options

end Bindery
