import Bindery.Text.Sorted

namespace Bindery

/-- Modules that are imported whole, and names that are imported from modules. -/
structure Imports where
  modules : List Text := []
  names : List (Text × Text) := []
  deriving Repr

namespace Imports

def ofModule (module : Text) : Imports :=
  { modules := [module] }

def ofNames (module : Text) (names : List Text) : Imports :=
  { names := names.map fun name => (module, name) }

instance : Append Imports where
  append a b := ⟨a.modules ++ b.modules, a.names ++ b.names⟩

/-- The imports of many parts together. -/
def concat (parts : List Imports) : Imports :=
  parts.foldr (· ++ ·) {}

def isEmpty (i : Imports) : Bool :=
  i.modules.isEmpty && i.names.isEmpty

def namesOf (i : Imports) (module : Text) : List Text :=
  Text.sortedSet ((i.names.filter fun (m, _) => m == module).map Prod.snd)

/-- The lines that import a module: its names first, then the module itself. -/
def linesOf (i : Imports) (module : Text) : List Text :=
  let names := i.namesOf module
  (if names.isEmpty then [] else ["from " ++ module ++ " import " ++ Text.join ", " names]) ++
    (if i.modules.contains module then ["import " ++ module] else [])

/-- The import lines in the order of the modules. -/
def render (i : Imports) : Text :=
  let modules := Text.sortedSet (i.modules ++ i.names.map Prod.fst)
  Text.join "\n" (modules.flatMap i.linesOf)

end Imports

end Bindery
