import Bindery.Catalog.Basic
import Bindery.Type.Reference
import Bindery.Type.Scalar

namespace Bindery

/-- What a type reference denotes, by its place in the catalog. -/
inductive Target where
  | enum (index : Nat)
  | composite (index : Nat)
  | table (index : Nat)
  | scalar (scalar : Scalar)
  deriving DecidableEq, Repr

/-- The outcome of a lookup: the target, if any, and all array dimensions met on the way. -/
structure Lookup where
  target : Option Target
  dimensions : Nat
  deriving DecidableEq, Repr

namespace Catalog

/-- The declared enum, composite type or table of a name. -/
def declared? (c : Catalog) (base : Text) : Option Target :=
  match c.enums.indexOf? base with
  | some index => some (.enum index)
  | none =>
    match c.composites.indexOf? base with
    | some index => some (.composite index)
    | none => (c.tables.indexOf? base).map .table

/-- Looks up a reference, looking at no more than the given number of references in a chain of
domains. -/
def follow (c : Catalog) : Nat → TypeRef → Lookup
  | 0, r => ⟨none, r.dimensions⟩
  | n + 1, r =>
    match c.declared? r.base with
    | some target => ⟨some target, r.dimensions⟩
    | none =>
      match c.domains.get? r.base with
      | some domain =>
        let found := c.follow n (TypeRef.parse domain.baseType)
        ⟨found.target, r.dimensions + found.dimensions⟩
      | none => ⟨(Scalar.ofSqlName? r.base).map .scalar, r.dimensions⟩

/-- How many references in a chain of domains are looked at. -/
def maxChain : Nat := 16

def lookup (c : Catalog) (raw : Text) : Lookup :=
  c.follow maxChain (TypeRef.parse raw)

end Catalog

end Bindery
