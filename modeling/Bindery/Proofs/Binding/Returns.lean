import Bindery.Proofs.Binding.Assembly

namespace Bindery

namespace ReturnKind

/-- The entry of the catalog that a result was classified by. -/
def target? (c : Catalog) : ReturnKind → Option Target
  | .tableRow raw | .tableRows raw => (c.tables.indexOf? (TypeRef.parse raw).base).map .table
  | .composite raw => (c.composites.indexOf? (TypeRef.parse raw).base).map .composite
  | .enum raw => (c.enums.indexOf? (TypeRef.parse raw).base).map .enum
  | .scalar _ | .explicit _ | .void => none

/-- Whether an entry of a kind that is looked up earlier answers to the same name. -/
def isShadowed (c : Catalog) : ReturnKind → Bool
  | .tableRow raw | .tableRows raw =>
    c.enums.contains (TypeRef.parse raw).base || c.composites.contains (TypeRef.parse raw).base
  | .composite raw => c.enums.contains (TypeRef.parse raw).base
  | .enum _ | .scalar _ | .explicit _ | .void => false

/-- What is known of a result from its classification. -/
inductive Classified (c : Catalog) : ReturnKind → Prop
  | tableRow {raw : Text} : (TypeRef.parse raw).dimensions = 0 →
      c.tables.contains (TypeRef.parse raw).base → Classified c (.tableRow raw)
  | tableRows {raw : Text} : (TypeRef.parse raw).dimensions = 0 →
      c.tables.contains (TypeRef.parse raw).base → Classified c (.tableRows raw)
  | unresolved {raw : Text} : c.tables.contains (TypeRef.parse raw).base = false →
      (c.lookup raw).target = none → Classified c (.tableRows raw)
  | composite {raw : Text} : (TypeRef.parse raw).dimensions = 0 →
      c.composites.contains (TypeRef.parse raw).base → Classified c (.composite raw)
  | enum {raw : Text} : (TypeRef.parse raw).dimensions = 0 →
      c.enums.contains (TypeRef.parse raw).base → Classified c (.enum raw)
  | scalar {raw : Text} : Classified c (.scalar raw)
  | explicit {columns : List Column} : Classified c (.explicit columns)
  | void : Classified c .void

end ReturnKind

theorem SymbolTable.contains_eq_false_iff {α : Type} {table : SymbolTable α} {name : Text} :
    table.contains name = false ↔ table.indexOf? name = none := by
  rw [contains, Option.isSome_eq_false_iff, Option.isNone_iff_eq_none]

theorem SymbolTable.contains_of_indexOf? {α : Type} {table : SymbolTable α} {name : Text} {i : Nat}
    (h : table.indexOf? name = some i) : table.contains name = true := by
  rw [contains, h]
  rfl

namespace Catalog

variable {c : Catalog}

theorem lookup_of_declared {raw : Text} {target : Target}
    (hd : (TypeRef.parse raw).dimensions = 0)
    (h : c.declared? (TypeRef.parse raw).base = some target) :
    c.lookup raw = ⟨some target, 0⟩ := by
  unfold lookup maxChain follow
  rw [h, hd]

theorem lookup_of_undeclared {raw : Text} (h : c.declared? (TypeRef.parse raw).base = none)
    (hd : c.domains.contains (TypeRef.parse raw).base = false)
    (hs : Scalar.ofSqlName? (TypeRef.parse raw).base = none) : (c.lookup raw).target = none := by
  have hg : c.domains.get? (TypeRef.parse raw).base = none := by
    rw [SymbolTable.get?, SymbolTable.contains_eq_false_iff.mp hd]
    rfl
  unfold lookup maxChain follow
  rw [h, hg, hs]
  rfl

theorem lookup_enum {raw : Text} {i : Nat} (hd : (TypeRef.parse raw).dimensions = 0)
    (he : c.enums.indexOf? (TypeRef.parse raw).base = some i) :
    c.lookup raw = ⟨some (.enum i), 0⟩ := by
  apply lookup_of_declared hd
  rw [declared?, he]

theorem lookup_composite {raw : Text} {i : Nat} (hd : (TypeRef.parse raw).dimensions = 0)
    (he : c.enums.contains (TypeRef.parse raw).base = false)
    (hc : c.composites.indexOf? (TypeRef.parse raw).base = some i) :
    c.lookup raw = ⟨some (.composite i), 0⟩ := by
  apply lookup_of_declared hd
  rw [declared?, SymbolTable.contains_eq_false_iff.mp he, hc]

theorem lookup_table {raw : Text} {i : Nat} (hd : (TypeRef.parse raw).dimensions = 0)
    (he : c.enums.contains (TypeRef.parse raw).base = false)
    (hc : c.composites.contains (TypeRef.parse raw).base = false)
    (ht : c.tables.indexOf? (TypeRef.parse raw).base = some i) :
    c.lookup raw = ⟨some (.table i), 0⟩ := by
  apply lookup_of_declared hd
  rw [declared?, SymbolTable.contains_eq_false_iff.mp he, SymbolTable.contains_eq_false_iff.mp hc,
    ht]
  rfl

theorem denotesRows_of_table {raw : Text} (hd : (TypeRef.parse raw).dimensions = 0)
    (ht : c.tables.contains (TypeRef.parse raw).base) :
    Plan.denotesRows c raw = !c.enums.contains (TypeRef.parse raw).base := by
  obtain ⟨i, hi⟩ := Option.isSome_iff_exists.mp ht
  cases he : c.enums.indexOf? (TypeRef.parse raw).base with
  | some j =>
    rw [Plan.denotesRows, lookup_enum hd he, SymbolTable.contains_of_indexOf? he]
    rfl
  | none =>
    have he := SymbolTable.contains_eq_false_iff.mpr he
    cases hc : c.composites.indexOf? (TypeRef.parse raw).base with
    | some j =>
      rw [Plan.denotesRows, lookup_composite hd he hc, he]
      rfl
    | none =>
      have hc := SymbolTable.contains_eq_false_iff.mpr hc
      rw [Plan.denotesRows, lookup_table hd he hc hi, he]
      rfl

end Catalog

theorem ReturnSpec.classified_ofType (raw : Text) (isSet : Bool) (params : List Parameter)
    (c : Catalog) : (ofType raw isSet params c).kind.Classified c := by
  unfold ofType
  dsimp only
  split
  · exact .scalar
  rename_i hd
  have hd : (TypeRef.parse raw).dimensions = 0 := by omega
  split
  · exact .void
  split
  · rename_i ht
    cases isSet with
    | true => exact .tableRows hd ht
    | false => exact .tableRow hd ht
  rename_i ht
  split
  · rename_i hc
    exact .composite hd hc
  rename_i hc
  split
  · rename_i he
    exact .enum hd he
  rename_i he
  split
  · exact .explicit
  split
  · exact .scalar
  rename_i hs
  split
  · have hn : c.declared? (TypeRef.parse raw).base = none := by
      simp only [Bool.not_eq_true, SymbolTable.contains_eq_false_iff] at ht hc he
      rw [Catalog.declared?, he, hc, ht]
      rfl
    refine .unresolved (by simpa using ht) (Catalog.lookup_of_undeclared hn ?_ ?_)
    · simpa using fun hdom => hs (.inl hdom)
    · simpa using fun hsome => hs (.inr hsome)
  · exact .scalar

theorem ReturnSpec.Read.classified {c : Catalog} {params : List Parameter} {spec : ReturnSpec}
    (h : Read c params spec) : spec.kind.Classified c := by
  cases h with
  | implicit =>
    unfold ReturnSpec.implicit
    split
    · exact .explicit
    · exact .void
  | listed columns => exact .explicit
  | typed raw isSet => exact classified_ofType raw isSet params c

/-- A record class stands for a declaration: its origin, its name and its columns. -/
structure RecordClass.Describes (r : RecordClass) (origin : RecordOrigin) (sqlName : Text)
    (columns : List Column) : Prop where
  origin : r.origin = origin
  sqlName : r.sqlName = sqlName
  fields : r.fields.map Field.name = columns.map Column.name

namespace Binding

/-- A result has the class that was generated for an entry of the catalog. -/
def Represents (b : Binding) (c : Catalog) : Target → ResultShape → Prop
  | .table i, .record className => ∃ t r, c.tables.entries[i]? = some t ∧ r ∈ b.records ∧
      r.className = className ∧ r.Describes .table t.name t.columns
  | .composite i, .record className => ∃ t r, c.composites.entries[i]? = some t ∧ r ∈ b.records ∧
      r.className = className ∧ r.Describes .composite t.name t.fields
  | .enum i, .value type => ∃ t e, c.enums.entries[i]? = some t ∧ e ∈ b.enums ∧
      e.sqlName = normalizeKey t.name ∧ e.members.map EnumMember.label = t.labels ∧
      type = .enum e.ref
  | _, _ => False

theorem describes_recordClass (names : ClassNames) (catalog : Catalog) (owner sqlName : Text)
    (origin : RecordOrigin) (columns : List Column) (className : Text) :
    (recordClass names catalog owner sqlName origin columns className).value.Describes origin
      sqlName columns := by
  refine ⟨rfl, rfl, ?_⟩
  simp only [recordClass, fields, Noted.all, List.map_map]
  exact map_fst_of_zip (by simp [Grant.length_answerAll]) Column.name

section Assembled

variable {s : Schema} {plans : List (Plan × List Diagnostic)}

theorem represents_table {raw : Text} {i : Nat}
    (hl : s.catalog.lookup raw = ⟨some (.table i), 0⟩) (hc : s.Covers (plans.map Prod.fst) raw)
    (hi : i < s.catalog.tables.entries.length) :
    ∃ className, (namesFor s (plans.map Prod.fst)).recordClass? s.catalog raw = some className ∧
      (assemble s plans).Represents s.catalog (.table i) (.record className) := by
  have hr : s.catalog.RefersTo raw i := by rw [Catalog.RefersTo, hl]
  obtain ⟨className, hn⟩ := exists_table_class_iff.mpr ⟨hi, hc i hr hi⟩
  have ht := List.getElem?_eq_getElem hi
  refine ⟨className, ?_, s.catalog.tables.entries[i], _, ht, ?_, rfl,
    describes_recordClass (namesFor s (plans.map Prod.fst)) s.catalog
      ("table " ++ s.catalog.tables.entries[i].name) _ .table _ className⟩
  · rw [ClassNames.recordClass?, hl]
    exact Option.join_eq_some_iff.mpr hn
  · rw [assemble_records]
    apply List.mem_append_left
    apply List.mem_map_of_mem
    refine List.mem_filterMap.mpr ⟨(s.catalog.tables.entries[i], some className), ?_, rfl⟩
    exact List.mem_of_getElem? (List.getElem?_zip_eq_some.mpr ⟨ht, hn⟩)

theorem represents_composite {raw : Text} {i : Nat}
    (hl : s.catalog.lookup raw = ⟨some (.composite i), 0⟩)
    (hi : i < s.catalog.composites.entries.length) :
    ∃ className, (namesFor s (plans.map Prod.fst)).recordClass? s.catalog raw = some className ∧
      (assemble s plans).Represents s.catalog (.composite i) (.record className) := by
  have hj : i < (namesFor s (plans.map Prod.fst)).composites.length := by
    rw [length_composites]
    exact hi
  have hn := List.getElem?_eq_getElem hj
  have ht := List.getElem?_eq_getElem hi
  refine ⟨(namesFor s (plans.map Prod.fst)).composites[i], ?_, s.catalog.composites.entries[i], _,
    ht, ?_, rfl, describes_recordClass (namesFor s (plans.map Prod.fst)) s.catalog
      ("type " ++ s.catalog.composites.entries[i].name) _ .composite _ _⟩
  · rw [ClassNames.recordClass?, hl]
    exact hn
  · rw [assemble_records]
    apply List.mem_append_right
    apply List.mem_append_left
    apply List.mem_map_of_mem
    refine List.mem_map.mpr ⟨(s.catalog.composites.entries[i], _), ?_, rfl⟩
    exact List.mem_of_getElem? (List.getElem?_zip_eq_some.mpr ⟨ht, hn⟩)

theorem represents_enum {raw : Text} {i : Nat}
    (hl : s.catalog.lookup raw = ⟨some (.enum i), 0⟩)
    (hi : i < s.catalog.enums.entries.length) :
    (assemble s plans).Represents s.catalog (.enum i)
      (.value ((namesFor s (plans.map Prod.fst)).resolve s.catalog raw)) := by
  obtain ⟨parts⟩ := nonempty_grantParts s (plans.map Prod.fst)
  have ht := List.getElem?_eq_getElem hi
  have hj : i < parts.enums.length := by
    rw [parts.length_enums]
    exact hi
  have hz : (s.catalog.enums.entries.zip parts.enums)[i]? =
      some (s.catalog.enums.entries[i], parts.enums[i]) :=
    List.getElem?_zip_eq_some.mpr ⟨ht, List.getElem?_eq_getElem hj⟩
  have hn : (namesFor s (plans.map Prod.fst)).enums[i]? =
      some ⟨normalizeKey s.catalog.enums.entries[i].name, parts.enums[i].name⟩ := by
    rw [parts.names_enums, List.getElem?_map, hz]
    rfl
  refine ⟨s.catalog.enums.entries[i], (enumClass s.catalog.enums.entries[i]
    ⟨normalizeKey s.catalog.enums.entries[i].name, parts.enums[i].name⟩).value, ht, ?_, rfl, ?_, ?_⟩
  · rw [enums_eq]
    refine List.mem_map.mpr ⟨(s.catalog.enums.entries[i], _), ?_, rfl⟩
    exact List.mem_of_getElem? (List.getElem?_zip_eq_some.mpr ⟨ht, hn⟩)
  · simp only [enumClass, List.map_map]
    exact (map_snd_of_zip (by simp [Grant.length_answerAll]) id).trans (List.map_id _)
  · rw [ClassNames.resolve, hl]
    change ((namesFor s (plans.map Prod.fst)).enums[i]?.map ValueType.enum).getD _ = _
    rw [hn]
    rfl

theorem Represents.origin {i : Nat} {className : Text} {r : RecordClass}
    (h : (assemble s plans).Represents s.catalog (.table i) (.record className))
    (hr : r ∈ (assemble s plans).records) (hc : r.className = className) : r.origin = .table := by
  obtain ⟨t, other, _, ho, he, hd⟩ := h
  have hs := record?_of_mem hr
  rw [hc, ← he, record?_of_mem ho] at hs
  cases hs
  exact hd.origin

/-- The result of a plan for rows of a type as written. -/
def rowsOf (names : ClassNames) (catalog : Catalog) (raw : Text) : ResultShape :=
  ((names.recordClass? catalog raw).map .record).getD .rows

theorem rowsOf_enum {names : ClassNames} {c : Catalog} {raw : Text} {i : Nat}
    (hd : (TypeRef.parse raw).dimensions = 0)
    (he : c.enums.indexOf? (TypeRef.parse raw).base = some i) : rowsOf names c raw = .rows := by
  rw [rowsOf, ClassNames.recordClass?, Catalog.lookup_enum hd he]
  rfl

/-- Rows that are named after a table have its class unless another entry comes before it. -/
theorem rowsOf_table_iff (hcat : s.catalog.Consistent) {raw : Text} {i : Nat}
    (hd : (TypeRef.parse raw).dimensions = 0)
    (ht : s.catalog.tables.indexOf? (TypeRef.parse raw).base = some i)
    (hc : s.Covers (plans.map Prod.fst) raw) :
    (assemble s plans).Represents s.catalog (.table i)
        (rowsOf (namesFor s (plans.map Prod.fst)) s.catalog raw) ↔
      (ReturnKind.tableRow raw).isShadowed s.catalog = false := by
  rw [ReturnKind.isShadowed, Bool.or_eq_false_iff]
  cases he : s.catalog.enums.indexOf? (TypeRef.parse raw).base with
  | some j =>
    rw [rowsOf_enum hd he, SymbolTable.contains_of_indexOf? he]
    simp [Represents]
  | none =>
    have he := SymbolTable.contains_eq_false_iff.mpr he
    cases hcomp : s.catalog.composites.indexOf? (TypeRef.parse raw).base with
    | some j =>
      have hl := Catalog.lookup_composite hd he hcomp
      obtain ⟨className, hn, t, r, _, hm, hcn, hdesc⟩ :=
        @represents_composite s plans raw j hl (hcat.composites.indexOf?_lt hcomp)
      rw [SymbolTable.contains_of_indexOf? hcomp, rowsOf, hn]
      refine ⟨fun h => ?_, fun h => nomatch h.2⟩
      have ho := Represents.origin h hm hcn
      rw [hdesc.origin] at ho
      cases ho
    | none =>
      have hcomp := SymbolTable.contains_eq_false_iff.mpr hcomp
      have hl := Catalog.lookup_table hd he hcomp ht
      obtain ⟨className, hn, hr⟩ := represents_table hl hc (hcat.tables.indexOf?_lt ht)
      rw [rowsOf, hn]
      exact ⟨fun _ => ⟨he, hcomp⟩, fun _ => hr⟩

theorem rowsOf_composite_iff (hcat : s.catalog.Consistent) {raw : Text} {i : Nat}
    (hd : (TypeRef.parse raw).dimensions = 0)
    (hcomp : s.catalog.composites.indexOf? (TypeRef.parse raw).base = some i) :
    (assemble s plans).Represents s.catalog (.composite i)
        (rowsOf (namesFor s (plans.map Prod.fst)) s.catalog raw) ↔
      (ReturnKind.composite raw).isShadowed s.catalog = false := by
  rw [ReturnKind.isShadowed]
  cases he : s.catalog.enums.indexOf? (TypeRef.parse raw).base with
  | some j =>
    rw [rowsOf_enum hd he, SymbolTable.contains_of_indexOf? he]
    simp [Represents]
  | none =>
    have he := SymbolTable.contains_eq_false_iff.mpr he
    have hl := Catalog.lookup_composite hd he hcomp
    obtain ⟨className, hn, hr⟩ :=
      @represents_composite s plans raw i hl (hcat.composites.indexOf?_lt hcomp)
    rw [rowsOf, hn]
    exact ⟨fun _ => he, fun _ => hr⟩

/-- What stands in for rows of a type that is not found is the class of no table. -/
theorem not_represents_fallback {f : Signature} {identifier : Text} {plan : Plan}
    {resultClass : Option Text} {i : Nat}
    (hw : (wrapper (namesFor s (plans.map Prod.fst)) s.catalog f identifier plan
      resultClass).value ∈ wrapped s (plans.map Prod.fst))
    (hp : plan = .rows ∨ ∃ columns, plan = .explicit columns) :
    ¬ (assemble s plans).Represents s.catalog (.table i)
      (result (namesFor s (plans.map Prod.fst)) s.catalog f resultClass plan).value.1 := by
  intro h
  rcases hp with rfl | ⟨columns, rfl⟩
  · exact h
  · cases resultClass with
    | none => exact h
    | some className =>
      have ho := Represents.origin h (mem_records_of_wrapped hw rfl) rfl
      cases ho

end Assembled

theorem ofSignature_tableRows {c : Catalog} {strict : Bool} {f : Signature} {raw : Text}
    {p : Plan × List Diagnostic} (hk : f.returns.kind = .tableRows raw)
    (h : Plan.ofSignature c strict f = .ok p) :
    (Plan.denotesRows c raw = true ∧ p = (.record raw, [])) ∨
      (Plan.denotesRows c raw = false ∧ strict = false ∧
        (p.1 = .rows ∨ ∃ columns, p.1 = .explicit columns)) := by
  unfold Plan.ofSignature at h
  rw [hk] at h
  dsimp only at h
  split at h
  · rename_i hd
    cases h
    exact .inl ⟨hd, rfl⟩
  · rename_i hd
    have hd : Plan.denotesRows c raw = false := by simpa using hd
    cases strict with
    | true => cases h
    | false =>
      refine .inr ⟨hd, rfl, ?_⟩
      split at h
      · contradiction
      · split at h <;> cases h
        · exact .inl rfl
        · exact .inr ⟨_, rfl⟩

theorem represents_iff {s : Schema} {plans : List (Plan × List Diagnostic)} {strict : Bool}
    {f : Signature} {p : Plan × List Diagnostic} {identifier : Text} {resultClass : Option Text}
    {target : Target} (hcat : s.catalog.Consistent) (hcl : f.returns.kind.Classified s.catalog)
    (hp : Plan.ofSignature s.catalog strict f = .ok p)
    (hf : (f, p.1) ∈ s.functions.zip (plans.map Prod.fst))
    (hw : (wrapper (namesFor s (plans.map Prod.fst)) s.catalog f identifier p.1
      resultClass).value ∈ wrapped s (plans.map Prod.fst))
    (ht : f.returns.kind.target? s.catalog = some target) :
    (assemble s plans).Represents s.catalog target
        (result (namesFor s (plans.map Prod.fst)) s.catalog f resultClass p.1).value.1 ↔
      f.returns.kind.isShadowed s.catalog = false := by
  generalize hk : f.returns.kind = kind at hcl ht ⊢
  cases hcl with
  | tableRow hd htable =>
    obtain ⟨i, hi, rfl⟩ := Option.map_eq_some_iff.mp ht
    rw [Plan.ofSignature, hk] at hp
    cases hp
    exact rowsOf_table_iff hcat hd hi (Schema.covers_result hf List.mem_cons_self)
  | tableRows hd htable =>
    obtain ⟨i, hi, rfl⟩ := Option.map_eq_some_iff.mp ht
    rcases ofSignature_tableRows hk hp with ⟨_, rfl⟩ | ⟨hrows, _, hfallback⟩
    · exact rowsOf_table_iff hcat hd hi (Schema.covers_result hf List.mem_cons_self)
    · rw [Catalog.denotesRows_of_table hd htable, Bool.not_eq_false'] at hrows
      refine iff_of_false (not_represents_fallback hw hfallback) ?_
      rw [ReturnKind.isShadowed, hrows]
      exact Bool.noConfusion
  | unresolved hnone _ =>
    obtain ⟨i, hi, rfl⟩ := Option.map_eq_some_iff.mp ht
    rw [SymbolTable.contains_of_indexOf? hi] at hnone
    cases hnone
  | composite hd hcomposite =>
    obtain ⟨i, hi, rfl⟩ := Option.map_eq_some_iff.mp ht
    rw [Plan.ofSignature, hk] at hp
    cases hp
    exact rowsOf_composite_iff hcat hd hi
  | enum hd henum =>
    obtain ⟨i, hi, rfl⟩ := Option.map_eq_some_iff.mp ht
    rw [Plan.ofSignature, hk] at hp
    cases hp
    have hr := @represents_enum s plans _ i (Catalog.lookup_enum hd hi) (hcat.enums.indexOf?_lt hi)
    exact iff_of_true hr rfl
  | scalar => cases ht
  | explicit => cases ht
  | void => cases ht

/-- Rows are found by the lookup exactly if they have an entry and no enum answers to the name. -/
theorem denotesRows_of_classified {c : Catalog} {raw : Text}
    (h : (ReturnKind.tableRows raw).Classified c) :
    Plan.denotesRows c raw = true ↔ ((ReturnKind.tableRows raw).target? c).isSome = true ∧
      c.enums.contains (TypeRef.parse raw).base = false := by
  rw [ReturnKind.target?, Option.isSome_map]
  change _ ↔ c.tables.contains (TypeRef.parse raw).base = true ∧ _
  cases h with
  | tableRows hd ht =>
    rw [Catalog.denotesRows_of_table hd ht, Bool.not_eq_true']
    exact ⟨fun he => ⟨ht, he⟩, fun he => he.2⟩
  | unresolved ht hl =>
    have hrows : Plan.denotesRows c raw = false := by
      unfold Plan.denotesRows
      cases hf : c.lookup raw with
      | mk target dimensions =>
        rw [hf] at hl
        cases hl
        rfl
    rw [hrows, ht]
    exact ⟨nofun, fun he => he.1⟩

theorem exists_plan_tableRows {c : Catalog} {strict : Bool} {f : Signature} {raw : Text}
    (hk : f.returns.kind = .tableRows raw) : (∃ p, Plan.ofSignature c strict f = .ok p) ↔
      (strict = true → Plan.denotesRows c raw = true) := by
  constructor
  · rintro ⟨p, hp⟩ hs
    rcases ofSignature_tableRows hk hp with ⟨hd, _⟩ | ⟨_, hs', _⟩
    · exact hd
    · cases hs.symm.trans hs'
  · intro h
    rw [Plan.ofSignature, hk]
    dsimp only
    split
    · exact ⟨_, rfl⟩
    · rename_i hd
      rw [if_neg fun hs => hd (h hs)]
      split
      · exact ⟨_, rfl⟩
      · exact ⟨_, rfl⟩

/-- Planning fails only for rows, if the reading is strict and the lookup finds no rows. -/
theorem exists_plan_iff {c : Catalog} {strict : Bool} {f : Signature}
    (hcl : f.returns.kind.Classified c) : (∃ p, Plan.ofSignature c strict f = .ok p) ↔
      (strict = true → ∀ raw, f.returns.kind = .tableRows raw →
        (f.returns.kind.target? c).isSome ∧ c.enums.contains (TypeRef.parse raw).base = false) := by
  cases hk : f.returns.kind with
  | tableRows raw =>
    rw [hk] at hcl
    rw [exists_plan_tableRows hk, denotesRows_of_classified hcl]
    refine forall_congr' fun _ => ⟨?_, fun h => h raw rfl⟩
    intro h _ he
    cases he
    exact h
  | _ =>
    rw [Plan.ofSignature, hk]
    refine ⟨?_, fun _ => ⟨_, rfl⟩⟩
    intro _ _ _ h
    cases h

/-- A result whose entry is not shadowed is planned without a notice, strictly or not. -/
theorem ofSignature_of_entry {c : Catalog} {f : Signature} (hcl : f.returns.kind.Classified c)
    (ht : (f.returns.kind.target? c).isSome) (hs : f.returns.kind.isShadowed c = false)
    (strict : Bool) : ∃ plan, Plan.ofSignature c strict f = .ok (plan, []) := by
  cases hk : f.returns.kind with
  | tableRows raw =>
    rw [hk] at hcl ht hs
    have hd := (denotesRows_of_classified hcl).mpr ⟨ht, (Bool.or_eq_false_iff.mp hs).1⟩
    refine ⟨.record raw, ?_⟩
    rw [Plan.ofSignature, hk]
    exact if_pos hd
  | _ =>
    rw [Plan.ofSignature, hk]
    exact ⟨_, rfl⟩

/-- How the results of functions that name entries of the catalog are resolved. -/
structure ResolvesReturns (s : Schema) : Prop where
  /-- A result that is classified as a row, a composite value or an enum has its entry. -/
  entry : ∀ f ∈ s.functions, ∀ raw,
    f.returns.kind = .tableRow raw ∨ f.returns.kind = .composite raw ∨
      f.returns.kind = .enum raw → (f.returns.kind.target? s.catalog).isSome
  /-- A result whose entry is not shadowed is never refused, and nothing is said about it. -/
  accepted : ∀ f ∈ s.functions, (f.returns.kind.target? s.catalog).isSome →
    f.returns.kind.isShadowed s.catalog = false →
    ∀ strict, ∃ plan, Plan.ofSignature s.catalog strict f = .ok (plan, [])
  /-- A strict reading refuses exactly rows without an entry and rows shadowed by an enum. -/
  builds : ∀ strict, (∃ b, build s strict = .ok b) ↔ ∀ f ∈ s.functions, strict = true →
    ∀ raw, f.returns.kind = .tableRows raw → (f.returns.kind.target? s.catalog).isSome ∧
      s.catalog.enums.contains (TypeRef.parse raw).base = false
  /-- The wrapper returns the class of the entry exactly if this is not shadowed. -/
  represents : ∀ strict b, build s strict = .ok b → ∀ (k : Nat) f, s.functions[k]? = some f →
    ∃ w, b.wrappers[k]? = some w ∧ ∀ target, f.returns.kind.target? s.catalog = some target →
      (b.Represents s.catalog target w.result ↔ f.returns.kind.isShadowed s.catalog = false)

/--
Classification agrees with resolution up to shadowing: a function that is classified by an entry of
the catalog returns the class of this entry, strictly or not, unless an entry of a kind that is
looked up earlier answers to the same name.
-/
theorem resolvesReturns_of_parse {functions : Text} {shared : Option Text} {s : Schema}
    (h : Schema.parse functions shared = .ok s) : ResolvesReturns s := by
  have hcat := Schema.consistent_of_parse h
  have hcl (f : Signature) (hf : f ∈ s.functions) : f.returns.kind.Classified s.catalog :=
    (Schema.read_of_mem h hf).classified
  constructor
  case entry =>
    intro f hf raw hk
    have hc := hcl f hf
    rcases hk with hk | hk | hk
    all_goals
      rw [hk] at hc ⊢
      rw [ReturnKind.target?, Option.isSome_map]
      cases hc
      assumption
  case accepted =>
    intro f hf ht hs strict
    exact ofSignature_of_entry (hcl f hf) ht hs strict
  case builds =>
    intro strict
    have hb : (∃ b, build s strict = .ok b) ↔
        ∃ plans, s.functions.mapM (Plan.ofSignature s.catalog strict) = .ok plans := by
      constructor
      · rintro ⟨b, hb⟩
        obtain ⟨plans, hp, _⟩ := bind_eq_ok_iff.mp hb
        exact ⟨plans, hp⟩
      · rintro ⟨plans, hp⟩
        exact ⟨assemble s plans, bind_eq_ok_iff.mpr ⟨plans, hp, rfl⟩⟩
    rw [hb, exists_mapM_iff]
    exact forall₂_congr fun f hf => exists_plan_iff (hcl f hf)
  case represents =>
    intro strict b hb k f hf
    obtain ⟨plans, hp, rfl⟩ := exists_plans hb
    have hl := length_plans hp
    obtain ⟨plan, identifier, resultClass, hplan, hw, hm⟩ := exists_wrapper hl hf
    refine ⟨_, hw, ?_⟩
    intro target ht
    have hz : (f, plan) ∈ s.functions.zip (plans.map Prod.fst) :=
      List.mem_of_getElem? (List.getElem?_zip_eq_some.mpr ⟨hf, hplan⟩)
    rw [List.getElem?_map] at hplan
    obtain ⟨p, hpk, rfl⟩ := Option.map_eq_some_iff.mp hplan
    have hok := congrArg (·[k]?) hp
    simp only [List.getElem?_map, hf, hpk, Option.map_some, Option.some.injEq] at hok
    exact represents_iff hcat (hcl f (List.mem_of_getElem? hf)) hok hz hm ht

/-- A table, and a composite type whose bare name belongs to an enum, too. -/
def pairSource : Text :=
  "CREATE TABLE items (id int); CREATE TYPE a.p AS (x int); CREATE TYPE b.p AS ENUM ('x');
   CREATE FUNCTION f() RETURNS SETOF items; CREATE FUNCTION g() RETURNS a.p;
   CREATE FUNCTION h() RETURNS b.p"

theorem resolvesReturns_of_pair : ∃ s, Schema.parse pairSource none = .ok s ∧
    (s.functions.map fun f =>
      (f.returns.kind.target? s.catalog, f.returns.kind.isShadowed s.catalog)) =
        [(some (.table 0), false), (some (.composite 0), true), (some (.composite 0), true)] ∧
    ResolvesReturns s := by
  have h : ((Schema.parse pairSource none).toOption.bind fun s => some (s.functions.map fun f =>
      (f.returns.kind.target? s.catalog, f.returns.kind.isShadowed s.catalog))) =
        some [(some (.table 0), false), (some (.composite 0), true),
          (some (.composite 0), true)] := by
    set_option maxRecDepth 1000 in
    rw [show pairSource = _ from String.toList_ofList]
    decide +kernel
  obtain ⟨s, hs, h⟩ := Option.bind_eq_some_iff.mp h
  have hs := eq_ok_of_toOption hs
  exact ⟨s, hs, Option.some.inj h, resolvesReturns_of_parse hs⟩

/-- A function that returns rows of a declared table, beside an enum of the same bare name. -/
def shadowedSource : Text :=
  "CREATE TABLE a.items (id int); CREATE TYPE b.items AS ENUM ('x');
   CREATE FUNCTION f() RETURNS SETOF a.items"

/-- A strict reading refuses rows of a table that is declared. -/
theorem build_refuses_declared_table : ∃ s, Schema.parse shadowedSource none = .ok s ∧
    (s.functions.map fun f => f.returns.kind.target? s.catalog) = [some (.table 0)] ∧
    build s true = .error (.missingSchema "a.items" "f") := by
  have h : ((Schema.parse shadowedSource none).toOption.bind fun s =>
      some (s.functions.map fun f => f.returns.kind.target? s.catalog, build s true)) =
        some ([some (.table 0)], .error (.missingSchema "a.items" "f")) := by
    set_option maxRecDepth 1000 in
    rw [show shadowedSource = _ from String.toList_ofList]
    decide +kernel
  obtain ⟨s, hs, h⟩ := Option.bind_eq_some_iff.mp h
  obtain ⟨hf, hb⟩ := Prod.mk.inj (Option.some.inj h)
  exact ⟨s, eq_ok_of_toOption hs, hf, hb⟩

end Binding

end Bindery
