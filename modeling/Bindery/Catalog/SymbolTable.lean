import Bindery.Name.Identifier
import Bindery.Text.Blank

namespace Bindery

/-- The key under which a name is found: no quotes, no white space around it, small letters. -/
def normalizeKey (name : Text) : Text :=
  Text.lower (Text.trim (name.filter (· != '"')))

/-- What a symbol table can hold: things with a declared name that absorb their repetition and keep
the name under which they were declared first. -/
class Entry (α : Type) where
  name : α → Text
  merge : α → α → α
  name_merge : ∀ old new, name (merge old new) = name old

/-- What became of a declaration. -/
inductive Registration where
  | added (index : Nat)
  | merged (index : Nat)
  /-- A new entry whose bare name keeps denoting an entry of another schema. -/
  | ambiguous (index : Nat) (bare : Text)
  deriving DecidableEq, Repr

/-- Entries in the order of their declaration, and the keys that denote them. -/
structure SymbolTable (α : Type) where
  entries : List α := []
  keys : List (Text × Nat) := []
  deriving DecidableEq, Repr

namespace SymbolTable

variable {α : Type}

def find? (table : SymbolTable α) (key : Text) : Option Nat :=
  table.keys.lookup key

def bind (table : SymbolTable α) (key : Text) (index : Nat) : SymbolTable α :=
  if (table.find? key).isSome then table else { table with keys := table.keys ++ [(key, index)] }

/-- Whether some key with a schema denotes the entry. -/
def isQualified (table : SymbolTable α) (index : Nat) : Bool :=
  table.keys.any fun (key, i) => i == index && key.contains '.'

/--
The entry that a declaration under `key` repeats: the one with that key, or, if the key has a
schema, the one with its bare key that has no schema yet.
-/
def repeated? (table : SymbolTable α) (key : Text) : Option Nat :=
  match table.find? key with
  | some index => some index
  | none =>
    if key = Name.bare key then none
    else (table.find? (Name.bare key)).filter fun index => !table.isQualified index

def register [Entry α] (table : SymbolTable α) (entry : α) : SymbolTable α × Registration :=
  let key := normalizeKey (Entry.name entry)
  let bare := Name.bare key
  match table.repeated? key with
  | some index =>
    let merged := { table with entries := table.entries.modify index (Entry.merge · entry) }
    (merged.bind key index, .merged index)
  | none =>
    let index := table.entries.length
    let added := { table with entries := table.entries ++ [entry] }.bind key index
    if key = bare then (added, .added index)
    else if (added.find? bare).isSome then (added, .ambiguous index bare)
    else (added.bind bare index, .added index)

/-- The entry that a name denotes; a full name that is not bound is tried without its schema. -/
def indexOf? (table : SymbolTable α) (name : Text) : Option Nat :=
  let key := normalizeKey name
  (table.find? key).or (table.find? (Name.bare key))

def get? (table : SymbolTable α) (name : Text) : Option α :=
  (table.indexOf? name).bind fun index => table.entries[index]?

def contains (table : SymbolTable α) (name : Text) : Bool :=
  (table.indexOf? name).isSome

end SymbolTable

end Bindery
