import Bindery.Schema
import Mathlib.Data.List.Nodup

namespace Bindery

namespace Catalog

/-- The base of a reference names a domain, but no enum, composite type or table. -/
structure NamesDomain (c : Catalog) (r : TypeRef) (d : Domain) : Prop where
  enum : c.enums.contains r.base = false
  composite : c.composites.contains r.base = false
  table : c.tables.contains r.base = false
  domain : c.domains.get? r.base = some d

def Settled (c : Catalog) (r : TypeRef) : Prop :=
  ∀ d, ¬ c.NamesDomain r d

/-- Following base types leads from a reference through the domains of a list to another one. -/
def Passes (c : Catalog) : TypeRef → List Domain → TypeRef → Prop
  | r, [], last => r = last
  | r, d :: ds, last => c.NamesDomain r d ∧ c.Passes (TypeRef.parse d.baseType) ds last

/-- However far the base types are followed, there is a domain. -/
def Endless (c : Catalog) (r : TypeRef) : Prop :=
  ∀ ds last, c.Passes r ds last → ¬ c.Settled last

/-- Following base types leads through some domain twice. -/
def Circular (c : Catalog) (r : TypeRef) : Prop :=
  ∃ ds last, c.Passes r ds last ∧ ¬ ds.Nodup

section Chain

variable {c : Catalog} {r last stop : TypeRef} {d e : Domain} {ds es : List Domain}

theorem declared?_eq_none_iff {base : Text} : c.declared? base = none ↔
    c.enums.contains base = false ∧ c.composites.contains base = false ∧
      c.tables.contains base = false := by
  simp only [SymbolTable.contains, Option.isSome_eq_false_iff, Option.isNone_iff_eq_none, declared?]
  cases c.enums.indexOf? base with
  | some i => simp
  | none =>
    cases c.composites.indexOf? base with
    | some i => simp
    | none => simp

theorem namesDomain_iff :
    c.NamesDomain r d ↔ c.declared? r.base = none ∧ c.domains.get? r.base = some d := by
  rw [declared?_eq_none_iff]
  constructor
  · intro h
    exact ⟨⟨h.enum, h.composite, h.table⟩, h.domain⟩
  · intro h
    exact ⟨h.1.1, h.1.2.1, h.1.2.2, h.2⟩

theorem settled_iff : c.Settled r ↔ c.declared? r.base ≠ none ∨ c.domains.get? r.base = none := by
  by_cases hd : c.declared? r.base = none
  · simp [Settled, namesDomain_iff, hd, Option.eq_none_iff_forall_ne_some]
  · simp [Settled, namesDomain_iff, hd]

instance : Decidable (c.NamesDomain r d) :=
  decidable_of_iff _ namesDomain_iff.symm

instance : Decidable (c.Settled r) :=
  decidable_of_iff _ settled_iff.symm

instance decidablePasses : (r : TypeRef) → (ds : List Domain) → Decidable (c.Passes r ds last)
  | r, [] => inferInstanceAs (Decidable (r = last))
  | _, d :: ds =>
    have := decidablePasses (TypeRef.parse d.baseType) ds
    inferInstanceAs (Decidable (_ ∧ _))

theorem NamesDomain.unique (h : c.NamesDomain r d) (h' : c.NamesDomain r e) : d = e :=
  Option.some.inj (h.domain.symm.trans h'.domain)

theorem exists_namesDomain (h : ¬ c.Settled r) : ∃ d, c.NamesDomain r d := by
  by_contra hn
  apply h
  intro d hd
  exact hn ⟨d, hd⟩

theorem Passes.append (h : c.Passes r ds last) (h' : c.Passes last es stop) :
    c.Passes r (ds ++ es) stop := by
  induction ds generalizing r with
  | nil =>
    cases h
    exact h'
  | cons d ds ih => exact ⟨h.1, ih h.2⟩

theorem Passes.split (h : c.Passes r (ds ++ es) last) :
    ∃ middle, c.Passes r ds middle ∧ c.Passes middle es last := by
  induction ds generalizing r with
  | nil => exact ⟨r, rfl, h⟩
  | cons d ds ih =>
    obtain ⟨middle, hd, he⟩ := ih h.2
    exact ⟨middle, ⟨h.1, hd⟩, he⟩

theorem Passes.rest (h : c.Passes r ds last) (h' : c.Passes r es stop) (hs : c.Settled stop) :
    ∃ fs, es = ds ++ fs ∧ c.Passes last fs stop := by
  induction ds generalizing r es with
  | nil =>
    cases h
    exact ⟨es, rfl, h'⟩
  | cons d ds ih =>
    cases es with
    | nil =>
      cases h'
      exact absurd h.1 (hs d)
    | cons e es =>
      obtain rfl := h.1.unique h'.1
      obtain ⟨fs, rfl, hf⟩ := ih h.2 h'.2
      exact ⟨fs, rfl, hf⟩

theorem Passes.subset (h : c.Passes r ds last) : ds ⊆ c.domains.entries := by
  induction ds generalizing r with
  | nil => exact List.nil_subset _
  | cons d ds ih =>
    apply List.cons_subset.mpr
    obtain ⟨i, -, hi⟩ := Option.bind_eq_some_iff.mp h.1.domain
    exact ⟨List.mem_of_getElem? hi, ih h.2⟩

theorem Endless.exists_passes (h : c.Endless r) (n : Nat) :
    ∃ ds last, c.Passes r ds last ∧ ds.length = n := by
  induction n with
  | zero => exact ⟨[], r, rfl, rfl⟩
  | succ n ih =>
    obtain ⟨ds, last, hp, hl⟩ := ih
    obtain ⟨d, hd⟩ := exists_namesDomain (h ds last hp)
    refine ⟨ds ++ [d], TypeRef.parse d.baseType, hp.append ⟨hd, rfl⟩, ?_⟩
    rw [List.length_append, hl, List.length_singleton]

/-- A way through more domains than there are comes upon one of them again. -/
theorem Endless.circular (h : c.Endless r) : c.Circular r := by
  obtain ⟨ds, last, hp, hl⟩ := h.exists_passes (c.domains.entries.length + 1)
  refine ⟨ds, last, hp, ?_⟩
  intro hn
  have hle := hn.length_le_of_subset hp.subset
  omega

theorem Passes.nodup (h : c.Passes r ds last) (hs : c.Settled last) : ds.Nodup := by
  induction ds generalizing r with
  | nil => exact List.nodup_nil
  | cons d ds ih =>
    apply List.nodup_cons.mpr
    refine ⟨?_, ih h.2⟩
    intro hd
    obtain ⟨front, back, rfl⟩ := List.append_of_mem hd
    obtain ⟨again, -, hagain⟩ := h.2.split
    obtain ⟨fs, hf, -⟩ := h.2.rest hagain.2 hs
    have hl := congrArg List.length hf
    simp only [List.length_append, List.length_cons] at hl
    omega

theorem Circular.endless (h : c.Circular r) : c.Endless r := by
  obtain ⟨ds, last, hp, hn⟩ := h
  intro es stop hout hs
  obtain ⟨fs, rfl, -⟩ := hp.rest hout hs
  exact hn (hout.nodup hs).of_append_left

theorem endless_iff_circular : c.Endless r ↔ c.Circular r :=
  ⟨Endless.circular, Circular.endless⟩

theorem follow_of_namesDomain (h : c.NamesDomain r d) (n : Nat) :
    c.follow (n + 1) r = ⟨(c.follow n (TypeRef.parse d.baseType)).target,
      r.dimensions + (c.follow n (TypeRef.parse d.baseType)).dimensions⟩ := by
  obtain ⟨hn, hd⟩ := namesDomain_iff.mp h
  rw [follow, hn, hd]

theorem follow_of_settled (h : c.Settled r) (m n : Nat) :
    c.follow (m + 1) r = c.follow (n + 1) r := by
  rw [follow, follow]
  cases hd : c.declared? r.base with
  | some target => rfl
  | none =>
    rcases settled_iff.mp h with hn | hn
    · exact absurd hd hn
    · rw [hn]

/-- A lookup that has looked at all references of a way out finds the same, whatever its limit. -/
theorem Passes.follow_eq (h : c.Passes r ds last) (hs : c.Settled last) {m n : Nat}
    (hm : ds.length < m) (hn : ds.length < n) : c.follow m r = c.follow n r := by
  induction ds generalizing r m n with
  | nil =>
    cases h
    obtain ⟨m, rfl⟩ := Nat.exists_eq_add_of_lt hm
    obtain ⟨n, rfl⟩ := Nat.exists_eq_add_of_lt hn
    exact follow_of_settled hs _ _
  | cons d ds ih =>
    obtain ⟨m, rfl⟩ := Nat.exists_eq_add_of_lt hm
    obtain ⟨n, rfl⟩ := Nat.exists_eq_add_of_lt hn
    rw [follow_of_namesDomain h.1, follow_of_namesDomain h.1, ih h.2]
    · rw [List.length_cons]
      omega
    · rw [List.length_cons]
      omega

theorem Passes.follow_target (h : c.Passes r ds last) {n : Nat} (hn : n ≤ ds.length) :
    (c.follow n r).target = none := by
  induction ds generalizing r n with
  | nil =>
    rw [Nat.le_zero.mp hn]
    rfl
  | cons d ds ih =>
    cases n with
    | zero => rfl
    | succ n =>
      rw [follow_of_namesDomain h.1]
      exact ih h.2 (Nat.le_of_succ_le_succ hn)

end Chain

/--
Domains are transparent up to the limit. A reference to a domain is looked up as the base type of
the domain, with its own dimensions added, if at most fourteen further domains lead from there to a
reference that is none. Where there are more of them it denotes nothing, nor does it if the chain
never leaves the domains, which it does not exactly if it is circular.
-/
theorem lookup_through_domains {c : Catalog} {raw : Text} {d : Domain}
    (h : c.NamesDomain (TypeRef.parse raw) d) :
    (∀ ds last, c.Passes (TypeRef.parse d.baseType) ds last → c.Settled last →
      (ds.length ≤ 14 → (c.lookup raw).target = (c.lookup d.baseType).target ∧
        (c.lookup raw).dimensions =
          (TypeRef.parse raw).dimensions + (c.lookup d.baseType).dimensions) ∧
      (14 < ds.length → (c.lookup raw).target = none)) ∧
    (c.Endless (TypeRef.parse raw) ↔ c.Circular (TypeRef.parse raw)) ∧
    (c.Endless (TypeRef.parse raw) → (c.lookup raw).target = none) := by
  have hraw : c.lookup raw = ⟨(c.follow 15 (TypeRef.parse d.baseType)).target,
      (TypeRef.parse raw).dimensions + (c.follow 15 (TypeRef.parse d.baseType)).dimensions⟩ :=
    follow_of_namesDomain h 15
  refine ⟨?_, endless_iff_circular, ?_⟩
  · intro ds last hp hs
    rw [hraw]
    refine ⟨?_, ?_⟩
    · intro hl
      -- The lookup of the base type may look at one reference more, which changes nothing.
      have hbase : c.follow 15 (TypeRef.parse d.baseType) = c.lookup d.baseType := by
        apply hp.follow_eq hs
        · omega
        · rw [maxChain]
          omega
      rw [hbase]
      exact ⟨rfl, rfl⟩
    · intro hl
      exact hp.follow_target hl
  · intro he
    obtain ⟨ds, last, hp, hl⟩ := he.exists_passes maxChain
    exact hp.follow_target (Nat.le_of_eq hl.symm)

/-- Each domain of the ladder is an array of the next one. -/
def rung (i : Nat) : Domain :=
  ⟨"d" ++ Text.ofNat i, "D" ++ Text.ofNat (i + 1) ++ "[]"⟩

/-- A number of domains, with an enum behind the last one. -/
def ladder (n : Nat) : Catalog :=
  (declareAll {} (.enum ⟨"d" ++ Text.ofNat n, []⟩ ::
    (List.range n).map fun i => .domain (rung i))).1

/-- Two domains over each other, one of which is named with a schema that it does not have. -/
def knot : Catalog :=
  (declareAll {} [.domain ⟨"s.x", "y[]"⟩, .domain ⟨"y", "t.X"⟩]).1

/-- Fifteen domains are seen through to the enum, sixteen are not, and the knot is not either. -/
theorem lookup_through_domains_of_ladder :
    ((ladder 15).lookup "D0[2]").target = some (.enum 0) ∧
      ((ladder 15).lookup "D0[2]").dimensions = 1 + ((ladder 15).lookup "D1[]").dimensions ∧
      ((ladder 16).lookup "D0[2]").target = none ∧ (knot.lookup "s.x").target = none := by
  have hrung : (rung 0).baseType = "D1[]".toList := by decide
  have hfirst : (ladder 15).NamesDomain (TypeRef.parse "D0[2]") (rung 0) := by decide +kernel
  obtain ⟨hladder, -, -⟩ := lookup_through_domains hfirst
  obtain ⟨hseen, -⟩ := hladder ((List.range 14).map fun i => rung (i + 1)) ⟨"d15", 1⟩
    (by decide +kernel) (by decide +kernel)
  have hfirst : (ladder 16).NamesDomain (TypeRef.parse "D0[2]") (rung 0) := by decide +kernel
  obtain ⟨hladder, -, -⟩ := lookup_through_domains hfirst
  obtain ⟨-, hlost⟩ := hladder ((List.range 15).map fun i => rung (i + 1)) ⟨"d16", 1⟩
    (by decide +kernel) (by decide +kernel)
  have hx : knot.NamesDomain (TypeRef.parse "s.x") ⟨"s.x", "y[]"⟩ := by decide +kernel
  obtain ⟨-, hcircular, hknot⟩ := lookup_through_domains hx
  have hring : knot.Circular (TypeRef.parse "s.x") :=
    ⟨[⟨"s.x", "y[]"⟩, ⟨"y", "t.X"⟩, ⟨"s.x", "y[]"⟩], ⟨"y", 1⟩, by decide +kernel, by decide⟩
  obtain ⟨htarget, hdimensions⟩ := hseen (by decide)
  rw [hrung] at htarget hdimensions
  refine ⟨?_, ?_, hlost (by decide), hknot (hcircular.mpr hring)⟩
  · rw [htarget]
    decide +kernel
  · rw [hdimensions]
    decide +kernel

end Catalog

end Bindery
