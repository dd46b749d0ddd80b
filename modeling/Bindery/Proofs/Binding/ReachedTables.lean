import Bindery.Proofs.Basic.Lists
import Bindery.Proofs.Binding.Returns

namespace Bindery

namespace Catalog

variable {c : Catalog}

theorem Consistent.has_of_declared? (hc : c.Consistent) {base : Text} {target : Target}
    (h : c.declared? base = some target) : c.Has target := by
  unfold declared? at h
  split at h
  · rename_i i hi
    cases h
    exact hc.enums.indexOf?_lt hi
  · split at h
    · rename_i i hi
      cases h
      exact hc.composites.indexOf?_lt hi
    · obtain ⟨i, hi, rfl⟩ := Option.map_eq_some_iff.mp h
      exact hc.tables.indexOf?_lt hi

theorem Consistent.has_of_follow (hc : c.Consistent) {n : Nat} {r : TypeRef} {target : Target}
    (h : (c.follow n r).target = some target) : c.Has target := by
  induction n generalizing r with
  | zero => cases h
  | succ n ih =>
    unfold follow at h
    split at h
    · rename_i found hf
      cases h
      exact hc.has_of_declared? hf
    · split at h
      · exact ih h
      · obtain ⟨scalar, _, rfl⟩ := Option.map_eq_some_iff.mp h
        trivial

theorem Consistent.has_of_lookup (hc : c.Consistent) {raw : Text} {target : Target}
    (h : (c.lookup raw).target = some target) : c.Has target :=
  hc.has_of_follow h

end Catalog

/-- The types from which tables are reached: those of input parameters, of planned results and of
the fields of composite types. -/
inductive Schema.IsRoot (s : Schema) (strict : Bool) : Text → Prop
  | input {f : Signature} {p : Parameter} (hf : f ∈ s.functions) (hp : p ∈ f.inputs) :
      IsRoot s strict p.sqlType
  | result {f : Signature} {plan : Plan} {notices : List Diagnostic} {raw : Text}
      (hf : f ∈ s.functions) (hp : Plan.ofSignature s.catalog strict f = .ok (plan, notices))
      (hr : raw ∈ plan.types) : IsRoot s strict raw
  | field {c : Composite} {column : Column} (hc : c ∈ s.catalog.composites.entries)
      (h : column ∈ c.fields) : IsRoot s strict column.sqlType

/-- A table is reached from the functions and the composite types of a schema. -/
def Schema.Reaches (s : Schema) (strict : Bool) (table : Nat) : Prop :=
  s.catalog.Reached (s.IsRoot strict) table

section Planned

variable {s : Schema} {strict : Bool} {plans : List (Plan × List Diagnostic)}
  (hp : s.functions.map (Plan.ofSignature s.catalog strict) = plans.map .ok)

include hp

theorem Binding.mem_zip_plans_iff {f : Signature} {plan : Plan} :
    (f, plan) ∈ s.functions.zip (plans.map Prod.fst) ↔ f ∈ s.functions ∧
      ∃ notices, Plan.ofSignature s.catalog strict f = .ok (plan, notices) := by
  have hk {k : Nat} {f : Signature} (hf : s.functions[k]? = some f) :
      ∃ p, plans[k]? = some p ∧ Plan.ofSignature s.catalog strict f = .ok p := by
    have hok := congrArg (·[k]?) hp
    simp only [List.getElem?_map, hf, Option.map_some] at hok
    obtain ⟨p, hpk, he⟩ := Option.map_eq_some_iff.mp hok.symm
    exact ⟨p, hpk, he.symm⟩
  constructor
  · intro h
    obtain ⟨k, hz⟩ := List.mem_iff_getElem?.mp h
    obtain ⟨hf, hplan⟩ := List.getElem?_zip_eq_some.mp hz
    obtain ⟨p, hpk, he⟩ := hk hf
    rw [List.getElem?_map, hpk] at hplan
    cases hplan
    exact ⟨List.mem_of_getElem? hf, p.2, he⟩
  · rintro ⟨hf, notices, he⟩
    obtain ⟨k, hf⟩ := List.mem_iff_getElem?.mp hf
    obtain ⟨p, hpk, hok⟩ := hk hf
    rw [he] at hok
    cases hok
    refine List.mem_of_getElem? (List.getElem?_zip_eq_some.mpr ⟨hf, ?_⟩)
    rw [List.getElem?_map, hpk]
    rfl

theorem Schema.mem_rootTypes_iff {raw : Text} :
    raw ∈ s.rootTypes (plans.map Prod.fst) ↔ s.IsRoot strict raw := by
  rw [rootTypes, List.mem_append, List.mem_flatMap, List.mem_flatMap]
  constructor
  · rintro (⟨⟨f, plan⟩, hz, hr⟩ | ⟨c, hc, hr⟩)
    · obtain ⟨hf, notices, he⟩ := (Binding.mem_zip_plans_iff hp).mp hz
      rcases List.mem_append.mp hr with hr | hr
      · obtain ⟨p, hi, rfl⟩ := List.mem_map.mp hr
        exact .input hf hi
      · exact .result hf he hr
    · obtain ⟨column, hm, rfl⟩ := List.mem_map.mp hr
      exact .field hc hm
  · intro h
    cases h with
    | @input f p hf hi =>
      have hok : Plan.ofSignature s.catalog strict f ∈ plans.map .ok :=
        hp ▸ List.mem_map_of_mem hf
      obtain ⟨planned, _, he⟩ := List.mem_map.mp hok
      exact .inl ⟨(f, planned.1), (Binding.mem_zip_plans_iff hp).mpr ⟨hf, planned.2, he.symm⟩,
        List.mem_append_left _ (List.mem_map_of_mem hi)⟩
    | @result f plan notices _ hf he hr =>
      exact .inl ⟨(f, plan), (Binding.mem_zip_plans_iff hp).mpr ⟨hf, notices, he⟩,
        List.mem_append_right _ hr⟩
    | @field c column hc hm => exact .inr ⟨c, hc, List.mem_map_of_mem hm⟩

theorem Schema.mem_reachableTables_iff (hc : s.catalog.Consistent) {i : Nat} :
    i ∈ s.reachableTables (plans.map Prod.fst) ↔ s.Reaches strict i := by
  have hv (raw : Text) (j : Nat) (hr : s.catalog.RefersTo raw j) :
      j ∈ List.range s.catalog.tables.entries.length :=
    List.mem_range.mpr (hc.has_of_lookup hr)
  rw [reachableTables, Catalog.mem_reach_iff hv, Reaches]
  constructor
  · exact fun h => h.mono fun _ => (mem_rootTypes_iff hp).mp
  · exact fun h => h.mono fun _ => (mem_rootTypes_iff hp).mpr

end Planned

namespace Binding

/-- The record classes of tables describe the reached tables, one for each, in the order of the
catalog. -/
def EmitsReached (s : Schema) (strict : Bool) (b : Binding) : Prop :=
  ∃ tables : List (Table × Nat), tables.Sublist s.catalog.tables.entries.zipIdx ∧
    (∀ t i, (t, i) ∈ tables ↔ s.catalog.tables.entries[i]? = some t ∧ s.Reaches strict i) ∧
    List.Forall₂ (fun z r => r.Describes .table z.1.name z.1.columns) tables
      (b.records.filter fun r => r.origin == .table)

theorem EmitsReached.reaches_iff {s : Schema} {strict : Bool} {b : Binding}
    (h : EmitsReached s strict b) (hn : (s.catalog.tables.entries.map Table.name).Nodup) {i : Nat}
    {name : Text} (hi : (s.catalog.tables.entries.map Table.name)[i]? = some name) :
    s.Reaches strict i ↔
      name ∈ (b.records.filter fun r => r.origin == .table).map RecordClass.sqlName := by
  obtain ⟨tables, -, hm, hd⟩ := h
  have he : tables.map (fun z => z.1.name) =
      (b.records.filter fun r => r.origin == .table).map RecordClass.sqlName :=
    map_eq_of_forall₂ hd fun _ _ hr => hr.sqlName.symm
  obtain ⟨t, ht, rfl⟩ := Option.map_eq_some_iff.mp (List.getElem?_map ▸ hi)
  rw [← he]
  constructor
  · intro hr
    exact List.mem_map_of_mem ((hm t i).mpr ⟨ht, hr⟩)
  · intro hmem
    obtain ⟨⟨t', j⟩, hz, hname⟩ := List.mem_map.mp hmem
    obtain ⟨hj, hr⟩ := (hm t' j).mp hz
    have hlt : i < (s.catalog.tables.entries.map Table.name).length :=
      (List.getElem?_eq_some_iff.mp hi).1
    have hij : i = j := by
      refine (List.getElem?_inj hlt hn).mp ?_
      rw [hi, List.getElem?_map, hj, Option.map_some]
      exact congrArg some hname.symm
    exact hij ▸ hr

theorem origin_of_mem_tables {names : ClassNames} {catalog : Catalog} {r : RecordClass}
    (h : r ∈ (tableClasses names catalog).map Noted.value) : r.origin = .table := by
  obtain ⟨noted, hn, rfl⟩ := List.mem_map.mp h
  obtain ⟨x, _, hx⟩ := List.mem_filterMap.mp hn
  obtain ⟨className, _, rfl⟩ := Option.map_eq_some_iff.mp hx
  rfl

theorem origin_of_mem_composites {names : ClassNames} {catalog : Catalog} {r : RecordClass}
    (h : r ∈ (compositeClasses names catalog).map Noted.value) : r.origin = .composite := by
  obtain ⟨noted, hn, rfl⟩ := List.mem_map.mp h
  obtain ⟨x, _, rfl⟩ := List.mem_map.mp hn
  rfl

theorem origin_of_mem_wrapped {s : Schema} {plans : List Plan} {r : RecordClass}
    (h : r ∈ (wrapped s plans).filterMap Prod.snd) : r.origin = .result := by
  obtain ⟨w, hw, hr⟩ := List.mem_filterMap.mp h
  obtain ⟨f, identifier, plan, resultClass, _, rfl⟩ := exists_planned hw
  obtain ⟨columns, className, _, _, rfl⟩ := result_record hr
  rfl

theorem filter_records (s : Schema) (plans : List (Plan × List Diagnostic)) :
    ((assemble s plans).records.filter fun r => r.origin == .table) =
      (tableClasses (namesFor s (plans.map Prod.fst)) s.catalog).map Noted.value := by
  have ht : ((tableClasses (namesFor s (plans.map Prod.fst)) s.catalog).map Noted.value).filter
      (fun r => r.origin == .table) =
        (tableClasses (namesFor s (plans.map Prod.fst)) s.catalog).map Noted.value := by
    apply List.filter_eq_self.mpr
    intro r hr
    rw [origin_of_mem_tables hr]
    rfl
  have hc : ((compositeClasses (namesFor s (plans.map Prod.fst)) s.catalog).map
      Noted.value).filter (fun r => r.origin == .table) = [] := by
    apply List.filter_eq_nil_iff.mpr
    intro r hr
    rw [origin_of_mem_composites hr]
    decide
  have hw : ((wrapped s (plans.map Prod.fst)).filterMap Prod.snd).filter
      (fun r => r.origin == .table) = [] := by
    apply List.filter_eq_nil_iff.mpr
    intro r hr
    rw [origin_of_mem_wrapped hr]
    decide
  rw [assemble_records, List.filter_append, List.filter_append, ht, hc, hw, List.append_nil,
    List.append_nil]

theorem describes_tableClasses (s : Schema) (plans : List Plan) :
    List.Forall₂ (fun z r => r.Describes .table z.1.name z.1.columns)
      (s.catalog.tables.entries.zipIdx.filter fun z => (s.reachableTables plans).contains z.2)
      ((tableClasses (namesFor s plans) s.catalog).map Noted.value) := by
  rw [tableClasses, List.map_filterMap]
  have hs := isSome_tables s plans
  have hi : (List.range s.catalog.tables.entries.length) =
      s.catalog.tables.entries.zipIdx.map Prod.snd := by
    rw [List.zipIdx_map_snd, List.range_eq_range']
  rw [hi, List.map_map] at hs
  have hf := forall₂_zip_filterMap (fun t className => (recordClass (namesFor s plans) s.catalog
    ("table " ++ t.name) t.name .table t.columns className).value) hs
  have he (z : Table × Option Text) : (z.2.map (recordClass (namesFor s plans) s.catalog
      ("table " ++ z.1.name) z.1.name .table z.1.columns)).map Noted.value =
        z.2.map fun className => (recordClass (namesFor s plans) s.catalog
          ("table " ++ z.1.name) z.1.name .table z.1.columns className).value :=
    Option.map_map ..
  simp only [he]
  refine hf.imp ?_
  rintro z r ⟨className, rfl⟩
  exact describes_recordClass ..

theorem emitsReached_assemble {s : Schema} {strict : Bool} {plans : List (Plan × List Diagnostic)}
    (hc : s.catalog.Consistent)
    (hp : s.functions.map (Plan.ofSignature s.catalog strict) = plans.map .ok) :
    EmitsReached s strict (assemble s plans) := by
  refine ⟨s.catalog.tables.entries.zipIdx.filter
    fun z => (s.reachableTables (plans.map Prod.fst)).contains z.2, List.filter_sublist, ?_, ?_⟩
  · intro t i
    rw [List.mem_filter, List.mem_zipIdx_iff_getElem?, List.contains_iff_mem,
      Schema.mem_reachableTables_iff hp hc]
  · rw [filter_records]
    exact describes_tableClasses s (plans.map Prod.fst)

end Binding

end Bindery
