import Bindery.Catalog.Lookup
import Bindery.Proofs.Schema.Parsed

namespace Bindery

inductive EntryKind where
  | enum
  | composite
  | table
  | domain
  deriving DecidableEq, Repr

namespace EntryKind

def before : EntryKind → List EntryKind
  | .enum => []
  | .composite => [.enum]
  | .table => [.enum, .composite]
  | .domain => [.enum, .composite, .table]

theorem exists_first {p : EntryKind → Prop} {kind : EntryKind} (h : p kind) :
    ∃ first, p first ∧ ∀ k ∈ first.before, ¬ p k := by
  by_cases henum : p .enum
  · exact ⟨.enum, henum, by simp [before]⟩
  by_cases hcomposite : p .composite
  · exact ⟨.composite, hcomposite, by simp [before, henum]⟩
  by_cases htable : p .table
  · exact ⟨.table, htable, by simp [before, henum, hcomposite]⟩
  cases kind with
  | enum => exact absurd h henum
  | composite => exact absurd h hcomposite
  | table => exact absurd h htable
  | domain => exact ⟨.domain, h, by simp [before, henum, hcomposite, htable]⟩

end EntryKind

def TypeRef.keyOf (raw : Text) : Text :=
  normalizeKey (parse raw).base

namespace Catalog

/-- The entry of a kind that is registered under a key. -/
def bound? (c : Catalog) (key : Text) : EntryKind → Option Nat
  | .enum => c.enums.find? key
  | .composite => c.composites.find? key
  | .table => c.tables.find? key
  | .domain => c.domains.find? key

/-- A kind has an entry under a key, and no kind before it has one. -/
def FirstWith (c : Catalog) (key : Text) (kind : EntryKind) : Prop :=
  (c.bound? key kind).isSome ∧ ∀ k ∈ kind.before, c.bound? key k = none

instance (c : Catalog) (key : Text) (kind : EntryKind) : Decidable (c.FirstWith key kind) :=
  inferInstanceAs (Decidable (_ ∧ _))

/-- The entry of a kind that answers to a name: the one with its key, or else with its bare key. -/
def answer? (c : Catalog) (name : Text) (kind : EntryKind) : Option Nat :=
  (c.bound? (normalizeKey name) kind).or (c.bound? (Name.bare (normalizeKey name)) kind)

/-- What a reference denotes that has met an entry; a domain is followed to its base type. -/
def denoted (c : Catalog) (r : TypeRef) : EntryKind → Nat → Lookup
  | .enum, i => ⟨some (.enum i), r.dimensions⟩
  | .composite, i => ⟨some (.composite i), r.dimensions⟩
  | .table, i => ⟨some (.table i), r.dimensions⟩
  | .domain, i =>
    match c.domains.entries[i]? with
    | some domain =>
      let found := c.follow (maxChain - 1) (TypeRef.parse domain.baseType)
      ⟨found.target, r.dimensions + found.dimensions⟩
    | none => ⟨none, r.dimensions⟩

/-- The lookup of a type as written goes through an entry: it answers to the name, no kind before it
does, and the outcome is what this entry denotes. -/
structure Meets (c : Catalog) (raw : Text) (kind : EntryKind) (i : Nat) : Prop where
  answers : c.answer? (TypeRef.parse raw).base kind = some i
  first : ∀ k ∈ kind.before, c.answer? (TypeRef.parse raw).base k = none
  outcome : c.lookup raw = c.denoted (TypeRef.parse raw) kind i

variable {c : Catalog} {key raw : Text} {kind : EntryKind} {i : Nat}

theorem declared?_eq (c : Catalog) (name : Text) : c.declared? name =
    ((c.answer? name .enum).map Target.enum).or (((c.answer? name .composite).map .composite).or
      ((c.answer? name .table).map .table)) := by
  have he : c.enums.indexOf? name = c.answer? name .enum := rfl
  have hc : c.composites.indexOf? name = c.answer? name .composite := rfl
  have ht : c.tables.indexOf? name = c.answer? name .table := rfl
  rw [declared?, he, hc, ht]
  cases c.answer? name .enum with
  | some i => rfl
  | none =>
    cases c.answer? name .composite with
    | some i => rfl
    | none => rfl

/-- The kinds are asked in turn, and the first that answers decides. -/
theorem lookup_eq_denoted (hc : c.Consistent)
    (hi : c.answer? (TypeRef.parse raw).base kind = some i)
    (hf : ∀ k ∈ kind.before, c.answer? (TypeRef.parse raw).base k = none) :
    c.lookup raw = c.denoted (TypeRef.parse raw) kind i := by
  have hd := c.declared?_eq (TypeRef.parse raw).base
  unfold lookup maxChain follow
  cases kind with
  | enum =>
    rw [hi] at hd
    rw [hd]
    rfl
  | composite =>
    rw [hf .enum (by simp [EntryKind.before]), hi] at hd
    rw [hd]
    rfl
  | table =>
    rw [hf .enum (by simp [EntryKind.before]), hf .composite (by simp [EntryKind.before]), hi] at hd
    rw [hd]
    rfl
  | domain =>
    rw [hf .enum (by simp [EntryKind.before]), hf .composite (by simp [EntryKind.before]),
      hf .table (by simp [EntryKind.before])] at hd
    have hget : c.domains.get? (TypeRef.parse raw).base = c.domains.entries[i]? :=
      congrArg (Option.bind · fun index => c.domains.entries[index]?) hi
    have hlt := hc.domains.indexOf?_lt hi
    rw [hd, hget, denoted, List.getElem?_eq_getElem hlt]
    rfl

theorem Consistent.bound_bare (hc : c.Consistent) (h : (c.bound? key kind).isSome) :
    (c.bound? (Name.bare key) kind).isSome := by
  obtain ⟨i, hi⟩ := Option.isSome_iff_exists.mp h
  apply Option.isSome_iff_exists.mpr
  cases kind with
  | enum => exact hc.enums.bare_bound hi
  | composite => exact hc.composites.bare_bound hi
  | table => exact hc.tables.bare_bound hi
  | domain => exact hc.domains.bare_bound hi

theorem Consistent.answer?_eq_none (hc : c.Consistent) {name : Text}
    (h : c.bound? (Name.bare (normalizeKey name)) kind = none) : c.answer? name kind = none := by
  rw [answer?, h, Option.or_none, ← Option.not_isSome_iff_eq_none]
  intro hs
  have hb := hc.bound_bare hs
  rw [h] at hb
  cases hb

/-- An entry is met in the first kind that knows the bare key. -/
theorem Consistent.exists_meets (hc : c.Consistent)
    (hr : (c.bound? (TypeRef.keyOf raw) kind).isSome) :
    ∃ first i, c.Meets raw first i ∧ c.FirstWith (Name.bare (TypeRef.keyOf raw)) first := by
  have hex : ∃ first, (c.bound? (Name.bare (TypeRef.keyOf raw)) first).isSome ∧
      ∀ k ∈ first.before, ¬ (c.bound? (Name.bare (TypeRef.keyOf raw)) k).isSome :=
    EntryKind.exists_first (p := fun k => (c.bound? (Name.bare (TypeRef.keyOf raw)) k).isSome)
      (hc.bound_bare hr)
  obtain ⟨first, hb, hn⟩ := hex
  have hfirst (k : EntryKind) (hk : k ∈ first.before) :
      c.bound? (Name.bare (TypeRef.keyOf raw)) k = none :=
    Option.not_isSome_iff_eq_none.mp (hn k hk)
  have hans (k : EntryKind) (hk : k ∈ first.before) :
      c.answer? (TypeRef.parse raw).base k = none :=
    hc.answer?_eq_none (hfirst k hk)
  obtain ⟨j, hj⟩ := Option.isSome_iff_exists.mp hb
  have hi : c.answer? (TypeRef.parse raw).base first =
      some ((c.bound? (TypeRef.keyOf raw) first).getD j) := by
    change (c.bound? (TypeRef.keyOf raw) first).or
      (c.bound? (Name.bare (TypeRef.keyOf raw)) first) = _
    rw [hj]
    cases c.bound? (TypeRef.keyOf raw) first with
    | none => rfl
    | some i => rfl
  exact ⟨first, _, ⟨hi, hans, lookup_eq_denoted hc hi hans⟩, hb, hfirst⟩

/-- The entry that is met has the full key exactly if its kind is the first that knows this key. -/
theorem Meets.bound_iff (h : c.Meets raw kind i) :
    c.bound? (TypeRef.keyOf raw) kind = some i ↔ c.FirstWith (TypeRef.keyOf raw) kind := by
  constructor
  · intro hb
    refine ⟨by rw [hb]; rfl, fun k hk => ?_⟩
    exact (Option.or_eq_none_iff.mp (h.first k hk)).1
  · rintro ⟨hs, -⟩
    obtain ⟨j, hj⟩ := Option.isSome_iff_exists.mp hs
    have ha : (c.bound? (TypeRef.keyOf raw) kind).or _ = some i := h.answers
    rw [hj, Option.some_or] at ha
    rw [hj, ha]

theorem Meets.bound_bare (h : c.Meets raw kind i)
    (hn : c.bound? (TypeRef.keyOf raw) kind = none) :
    c.bound? (Name.bare (TypeRef.keyOf raw)) kind = some i := by
  have ha : (c.bound? (TypeRef.keyOf raw) kind).or _ = some i := h.answers
  rwa [hn, Option.none_or] at ha

/--
What a full name is looked up through. After every history of declarations, a type as written whose
key is registered meets an entry of the first kind that knows its bare key; this is the entry of
the full key exactly if that kind is also the first that knows the full key, and it is an entry that
only the bare key denotes where it does not know the full key.
-/
theorem lookup_exact_iff {declarations : List Declaration} (hc : (declareAll {} declarations).1 = c)
    (hr : (c.bound? (TypeRef.keyOf raw) kind).isSome) :
    ∃ first i, c.Meets raw first i ∧ c.FirstWith (Name.bare (TypeRef.keyOf raw)) first ∧
      (c.bound? (TypeRef.keyOf raw) first = some i ↔ c.FirstWith (TypeRef.keyOf raw) first) ∧
      (c.bound? (TypeRef.keyOf raw) first = none →
        c.bound? (Name.bare (TypeRef.keyOf raw)) first = some i) := by
  obtain ⟨first, i, hm, hf⟩ := (hc ▸ consistent_empty.declareAll declarations :
    c.Consistent).exists_meets hr
  exact ⟨first, i, hm, hf, hm.bound_iff, hm.bound_bare⟩

/-- A table and a domain of one schema, and in another one an enum with the table's bare name. -/
def stock : List Declaration :=
  [.table ⟨"a.items", []⟩ [], .enum ⟨"b.items", ["x"]⟩, .domain ⟨"a.codes", "b.items[]"⟩]

theorem lookup_exact_iff_of_stock :
    (((declareAll {} stock).1.bound? (TypeRef.keyOf "A.Codes[]") .domain).isSome) ∧
      (declareAll {} stock).1.lookup "A.Codes[]" = ⟨some (.enum 0), 2⟩ ∧
      ∃ i, (declareAll {} stock).1.Meets "A.Codes[]" .domain i ∧
        (declareAll {} stock).1.bound? (TypeRef.keyOf "A.Codes[]") .domain = some i := by
  have hr : ((declareAll {} stock).1.bound? (TypeRef.keyOf "A.Codes[]") .domain).isSome := by
    decide +kernel
  obtain ⟨first, i, hm, hf, hi, -⟩ := lookup_exact_iff rfl hr
  have hd : (declareAll {} stock).1.FirstWith (TypeRef.keyOf "A.Codes[]") .domain := by
    decide +kernel
  have hfirst : first = .domain := by
    cases first with
    | enum => exact absurd hf (by decide +kernel)
    | composite => exact absurd hf (by decide +kernel)
    | table => exact absurd hf (by decide +kernel)
    | domain => rfl
  subst hfirst
  exact ⟨hr, by decide +kernel, i, hm, hi.mpr hd⟩

/-- The name of a table leads to an enum of another schema. -/
theorem lookup_leaves_schema : (declareAll {} stock).1.bound? "a.items" .table = some 0 ∧
    TypeRef.keyOf "a.items" = "a.items" ∧ (declareAll {} stock).1.Meets "a.items" .enum 0 ∧
      (declareAll {} stock).1.bound? "a.items" .enum = none ∧
      (declareAll {} stock).1.bound? "b.items" .enum = some 0 := by
  refine ⟨by decide, by decide +kernel, ⟨by decide +kernel, by decide, by decide +kernel⟩, ?_, ?_⟩
  · decide
  · decide

end Catalog

end Bindery
