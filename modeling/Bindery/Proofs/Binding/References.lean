import Bindery.Proofs.Basic.Lists
import Bindery.Proofs.Binding.ClassNames
import Bindery.Proofs.Binding.Reach

namespace Bindery

theorem ValueType.element_arrayOf (n : Nat) (t : ValueType) :
    (arrayOf n t).element = t.element := by
  induction n with
  | zero => rfl
  | succ n ih => exact ih

def ResultShape.types : ResultShape → List ValueType
  | .value type => [type]
  | .record className => [.record className]
  | .void | .rows => []

def EnumClass.ref (e : EnumClass) : EnumRef :=
  ⟨e.sqlName, e.className⟩

def Binding.types (b : Binding) : List ValueType :=
  b.records.flatMap (fun r => r.fields.map Field.type) ++
    b.wrappers.flatMap fun w => w.params.map Argument.type ++ w.result.types

def Catalog.Has (c : Catalog) : Target → Prop
  | .enum i => i < c.enums.entries.length
  | .composite i => i < c.composites.entries.length
  | .table i => i < c.tables.entries.length
  | .scalar _ => True

/-- The table that a type refers to, if the catalog has it, is reachable. -/
def Schema.Covers (s : Schema) (plans : List Plan) (raw : Text) : Prop :=
  ∀ i, s.catalog.RefersTo raw i → i < s.catalog.tables.entries.length →
    i ∈ s.reachableTables plans

namespace Schema

theorem covers_root {s : Schema} {plans : List Plan} {raw : Text} (h : raw ∈ s.rootTypes plans) :
    s.Covers plans raw := by
  intro i hr hi
  exact Catalog.mem_reach_of_type h hr (List.mem_range.mpr hi)

theorem covers_column {s : Schema} {plans : List Plan} {j : Nat} {raw : Text}
    (hj : j ∈ s.reachableTables plans) (h : raw ∈ s.catalog.columnTypes j) :
    s.Covers plans raw := by
  intro i hr hi
  exact Catalog.mem_reach_of_column hj h hr (List.mem_range.mpr hi)

theorem covers_composite {s : Schema} {plans : List Plan} {c : Composite} {column : Column}
    (hc : c ∈ s.catalog.composites.entries) (h : column ∈ c.fields) :
    s.Covers plans column.sqlType := by
  apply covers_root
  apply List.mem_append_right
  exact List.mem_flatMap.mpr ⟨c, hc, List.mem_map_of_mem h⟩

theorem covers_input {s : Schema} {plans : List Plan} {f : Signature} {plan : Plan} {p : Parameter}
    (hf : (f, plan) ∈ s.functions.zip plans) (h : p ∈ f.inputs) : s.Covers plans p.sqlType := by
  apply covers_root
  apply List.mem_append_left
  exact List.mem_flatMap.mpr ⟨(f, plan), hf, List.mem_append_left _ (List.mem_map_of_mem h)⟩

theorem covers_result {s : Schema} {plans : List Plan} {f : Signature} {plan : Plan} {raw : Text}
    (hf : (f, plan) ∈ s.functions.zip plans) (h : raw ∈ plan.types) : s.Covers plans raw := by
  apply covers_root
  apply List.mem_append_left
  exact List.mem_flatMap.mpr ⟨(f, plan), hf, List.mem_append_right _ h⟩

end Schema

namespace ClassNames

/-- The type of a target is an enum or a record class that has a name, or a primitive type. -/
inductive Names (names : ClassNames) : ValueType → Prop
  | enum {ref : EnumRef} : ref ∈ names.enums → Names names (.enum ref)
  | table {className : Text} : some className ∈ names.tables → Names names (.record className)
  | composite {className : Text} : className ∈ names.composites → Names names (.record className)
  | scalar {scalar : Scalar} : Names names (.scalar scalar)

theorem names_of_typeOf? {names : ClassNames} {target : Target} {t : ValueType}
    (h : names.typeOf? target = some t) : names.Names t := by
  cases target with
  | enum i =>
    obtain ⟨ref, hr, rfl⟩ := Option.map_eq_some_iff.mp h
    exact .enum (List.mem_of_getElem? hr)
  | composite i =>
    obtain ⟨className, hc, rfl⟩ := Option.map_eq_some_iff.mp h
    exact .composite (List.mem_of_getElem? hc)
  | table i =>
    obtain ⟨className, hc, rfl⟩ := Option.map_eq_some_iff.mp h
    exact .table (List.mem_of_getElem? (Option.join_eq_some_iff.mp hc))
  | scalar scalar =>
    cases h
    exact .scalar

theorem Names.element {names : ClassNames} {t : ValueType} (h : names.Names t) :
    t.element = t := by
  cases h <;> rfl

theorem resolve_cases (names : ClassNames) (catalog : Catalog) (raw : Text) :
    names.Names (names.resolve catalog raw).element ∨
      ((names.resolve catalog raw).element = .unknown raw ∧
        ∀ target, (catalog.lookup raw).target = some target → names.typeOf? target = none) := by
  rw [resolve, ValueType.element_arrayOf]
  cases hb : (catalog.lookup raw).target.bind names.typeOf? with
  | some t =>
    obtain ⟨target, _, ht⟩ := Option.bind_eq_some_iff.mp hb
    have hn := names_of_typeOf? ht
    exact .inl (hn.element.symm ▸ hn)
  | none =>
    refine .inr ⟨rfl, ?_⟩
    intro target ht
    rwa [ht] at hb

theorem resolve_of_recordClass? {names : ClassNames} {catalog : Catalog} {raw className : Text}
    (h : names.recordClass? catalog raw = some className) :
    names.resolve catalog raw = .record className := by
  unfold recordClass? at h
  unfold resolve
  split at h
  · rename_i hl
    simp [hl, typeOf?, h, ValueType.arrayOf]
  · rename_i hl
    simp [hl, typeOf?, h, ValueType.arrayOf]
  · cases h

end ClassNames

namespace Binding

/-- The type is resolved from a type as written whose table is reachable. -/
def Resolves (s : Schema) (plans : List Plan) (t : ValueType) : Prop :=
  ∃ raw, s.Covers plans raw ∧ t = (namesFor s plans).resolve s.catalog raw

theorem exists_column {names : ClassNames} {catalog : Catalog} {owner : Text}
    {columns : List Column} {f : Field} (h : f ∈ (fields names catalog owner columns).value) :
    ∃ c ∈ columns, f.type = names.resolve catalog c.sqlType := by
  simp only [fields, Noted.all, List.map_map, List.mem_map] at h
  obtain ⟨⟨c, grant⟩, hc, rfl⟩ := h
  exact ⟨c, (List.of_mem_zip hc).1, rfl⟩

/-- A parameter of a wrapper is an input of the function under a name of its own. -/
theorem exists_parameter {names : ClassNames} {catalog : Catalog} {f : Signature} {a : Argument}
    (h : a ∈ (arguments names catalog f).value) :
    ∃ p ∈ f.inputs, ∃ identifier, a = ⟨p.name, identifier, p.sqlType,
      names.resolve catalog p.sqlType, p.isOptional, p.hasSqlDefault, p.default,
      p.mode == .variadic⟩ := by
  simp only [arguments, Noted.all, List.map_map, List.mem_map] at h
  obtain ⟨⟨⟨p, i⟩, grant⟩, hp, rfl⟩ := h
  exact ⟨p, List.fst_mem_of_mem_zipIdx (List.of_mem_zip hp).1, grant.name, rfl⟩

theorem exists_input {names : ClassNames} {catalog : Catalog} {f : Signature} {a : Argument}
    (h : a ∈ (arguments names catalog f).value) :
    ∃ p ∈ f.inputs, a.type = names.resolve catalog p.sqlType := by
  obtain ⟨p, hp, identifier, rfl⟩ := exists_parameter h
  exact ⟨p, hp, rfl⟩

theorem resolves_recordClass {s : Schema} {plans : List Plan} {columns : List Column}
    (h : ∀ c ∈ columns, s.Covers plans c.sqlType) (owner sqlName : Text) (origin : RecordOrigin)
    (className : Text) :
    ∀ f ∈ (recordClass (namesFor s plans) s.catalog owner sqlName origin columns
      className).value.fields, Resolves s plans f.type := by
  intro f hf
  obtain ⟨c, hc, ht⟩ := exists_column hf
  exact ⟨c.sqlType, h c hc, ht⟩

/-- The wrappers, each with the record class that its result brings along. -/
def wrapped (s : Schema) (plans : List Plan) : List (Wrapper × Option RecordClass) :=
  (((s.functions.zip ((functionGrants s.functions).map Grant.name)).zip plans).zip
    (resultClasses s.catalog (grantsFor s plans))).map fun (((f, identifier), plan), resultClass) =>
      (wrapper (namesFor s plans) s.catalog f identifier plan resultClass).value

theorem assemble_records (s : Schema) (plans : List (Plan × List Diagnostic)) :
    (assemble s plans).records =
      (tableClasses (namesFor s (plans.map Prod.fst)) s.catalog).map Noted.value ++
        ((compositeClasses (namesFor s (plans.map Prod.fst)) s.catalog).map Noted.value ++
          (wrapped s (plans.map Prod.fst)).filterMap Prod.snd) := by
  simp only [assemble, Noted.all, wrapped, namesFor, grantsFor, List.map_map, List.append_assoc]
  rfl

theorem assemble_wrappers (s : Schema) (plans : List (Plan × List Diagnostic)) :
    (assemble s plans).wrappers = (wrapped s (plans.map Prod.fst)).map Prod.fst := by
  simp only [assemble, Noted.all, wrapped, namesFor, grantsFor, List.map_map]
  rfl

theorem assemble_enums (s : Schema) (plans : List (Plan × List Diagnostic)) :
    (assemble s plans).enums.map EnumClass.ref = (namesFor s (plans.map Prod.fst)).enums := by
  have hz := map_snd_zip_eq_take s.catalog.enums.entries (namesFor s (plans.map Prod.fst)).enums
  rw [← length_enums s (plans.map Prod.fst), List.take_length] at hz
  rw [← hz]
  simp only [assemble, Noted.all, List.map_map]
  rfl

theorem exists_planned {s : Schema} {plans : List Plan} {w : Wrapper × Option RecordClass}
    (h : w ∈ wrapped s plans) : ∃ f identifier plan resultClass,
      (f, plan) ∈ s.functions.zip plans ∧
      w = (wrapper (namesFor s plans) s.catalog f identifier plan resultClass).value := by
  obtain ⟨⟨⟨⟨f, identifier⟩, plan⟩, resultClass⟩, hm, rfl⟩ := List.mem_map.mp h
  refine ⟨f, identifier, plan, resultClass, ?_, rfl⟩
  obtain ⟨i, hi⟩ := List.mem_iff_getElem?.mp (List.of_mem_zip hm).1
  obtain ⟨hf, hp⟩ := List.getElem?_zip_eq_some.mp hi
  exact List.mem_iff_getElem?.mpr
    ⟨i, List.getElem?_zip_eq_some.mpr ⟨(List.getElem?_zip_eq_some.mp hf).1, hp⟩⟩

theorem exists_function {s : Schema} {plans : List (Plan × List Diagnostic)} {w : Wrapper}
    (h : w ∈ (assemble s plans).wrappers) :
    ∃ f ∈ s.functions, ∃ identifier plan resultClass,
      w = (wrapper (namesFor s (plans.map Prod.fst)) s.catalog f identifier plan
        resultClass).value.1 := by
  rw [assemble_wrappers] at h
  obtain ⟨planned, hm, rfl⟩ := List.mem_map.mp h
  obtain ⟨f, identifier, plan, resultClass, hf, rfl⟩ := exists_planned hm
  exact ⟨f, (List.of_mem_zip hf).1, identifier, plan, resultClass, rfl⟩

/-- A record class that a result brings along has the columns that the function describes. -/
theorem result_record {names : ClassNames} {catalog : Catalog} {f : Signature}
    {resultClass : Option Text} {plan : Plan} {r : RecordClass}
    (h : (result names catalog f resultClass plan).value.2 = some r) :
    ∃ columns className, plan = .explicit columns ∧ resultClass = some className ∧
      r = (recordClass names catalog ("result of function " ++ f.name) f.callName .result columns
        className).value := by
  cases plan with
  | explicit columns =>
    cases resultClass with
    | none => cases h
    | some className =>
      cases h
      exact ⟨columns, className, rfl, rfl, rfl⟩
  | _ => cases h

/-- A result is resolved from a planned type, or it is the record class that it brings along. -/
theorem result_types {names : ClassNames} {catalog : Catalog} {f : Signature}
    {resultClass : Option Text} {plan : Plan} {t : ValueType}
    (h : t ∈ (result names catalog f resultClass plan).value.1.types) :
    (∃ raw ∈ plan.types, t = names.resolve catalog raw) ∨
      ∃ r, (result names catalog f resultClass plan).value.2 = some r ∧
        t = .record r.className := by
  cases plan with
  | void => cases h
  | rows => cases h
  | value raw => exact .inl ⟨raw, by simp [Plan.types], List.mem_singleton.mp h⟩
  | record raw =>
    refine .inl ⟨raw, by simp [Plan.types], ?_⟩
    cases hc : names.recordClass? catalog raw with
    | none =>
      rw [result, hc] at h
      cases h
    | some className =>
      rw [result, hc] at h
      rw [ClassNames.resolve_of_recordClass? hc]
      exact List.mem_singleton.mp h
  | explicit columns =>
    cases resultClass with
    | none => cases h
    | some className => exact .inr ⟨_, rfl, List.mem_singleton.mp h⟩

theorem covers_of_class {s : Schema} {plans : List Plan} {t : Table} {className : Text}
    (h : (t, some className) ∈ s.catalog.tables.entries.zip (namesFor s plans).tables) :
    ∀ c ∈ t.columns, s.Covers plans c.sqlType := by
  obtain ⟨j, hj⟩ := List.mem_iff_getElem?.mp h
  obtain ⟨ht, hn⟩ := List.getElem?_zip_eq_some.mp hj
  have hreach := (exists_table_class_iff.mp ⟨className, hn⟩).2
  intro c hc
  apply Schema.covers_column hreach
  rw [Catalog.columnTypes, ht]
  exact List.mem_map_of_mem hc

theorem resolves_tableClasses {s : Schema} {plans : List Plan} {r : Noted RecordClass}
    (h : r ∈ tableClasses (namesFor s plans) s.catalog) :
    ∀ f ∈ r.value.fields, Resolves s plans f.type := by
  obtain ⟨⟨t, name⟩, hm, hr⟩ := List.mem_filterMap.mp h
  obtain ⟨className, rfl, rfl⟩ := Option.map_eq_some_iff.mp hr
  exact resolves_recordClass (covers_of_class hm) _ _ _ _

theorem resolves_compositeClasses {s : Schema} {plans : List Plan} {r : Noted RecordClass}
    (h : r ∈ compositeClasses (namesFor s plans) s.catalog) :
    ∀ f ∈ r.value.fields, Resolves s plans f.type := by
  obtain ⟨⟨c, className⟩, hm, rfl⟩ := List.mem_map.mp h
  apply resolves_recordClass
  intro column hc
  exact Schema.covers_composite (List.of_mem_zip hm).1 hc

theorem resolves_wrapped {s : Schema} {plans : List Plan} {w : Wrapper × Option RecordClass}
    (h : w ∈ wrapped s plans) :
    (∀ a ∈ w.1.params, Resolves s plans a.type) ∧
      (∀ t ∈ w.1.result.types, Resolves s plans t ∨ ∃ r, w.2 = some r ∧ t = .record r.className) ∧
      ∀ r, w.2 = some r → ∀ f ∈ r.fields, Resolves s plans f.type := by
  obtain ⟨f, identifier, plan, resultClass, hf, rfl⟩ := exists_planned h
  refine ⟨?_, ?_, ?_⟩
  · intro a ha
    obtain ⟨p, hp, ht⟩ := exists_input ha
    exact ⟨p.sqlType, Schema.covers_input hf hp, ht⟩
  · intro t ht
    rcases result_types ht with ⟨raw, hr, ht⟩ | hr
    · exact .inl ⟨raw, Schema.covers_result hf hr, ht⟩
    · exact .inr hr
  · intro r hr
    obtain ⟨columns, className, rfl, _, rfl⟩ := result_record hr
    apply resolves_recordClass
    intro c hc
    exact Schema.covers_result hf (List.mem_map_of_mem hc)

/-- Every type of a binding is resolved from a type as written, or it is a result's own class. -/
theorem resolves_types {s : Schema} {plans : List (Plan × List Diagnostic)} {t : ValueType}
    (h : t ∈ (assemble s plans).types) : Resolves s (plans.map Prod.fst) t ∨
      ∃ r ∈ (assemble s plans).records, t = .record r.className := by
  rcases List.mem_append.mp h with h | h
  · left
    obtain ⟨r, hr, ht⟩ := List.mem_flatMap.mp h
    obtain ⟨f, hf, rfl⟩ := List.mem_map.mp ht
    rw [assemble_records, List.mem_append, List.mem_append] at hr
    rcases hr with hr | hr | hr
    · obtain ⟨noted, hn, rfl⟩ := List.mem_map.mp hr
      exact resolves_tableClasses hn f hf
    · obtain ⟨noted, hn, rfl⟩ := List.mem_map.mp hr
      exact resolves_compositeClasses hn f hf
    · obtain ⟨w, hw, hr⟩ := List.mem_filterMap.mp hr
      exact (resolves_wrapped hw).2.2 r hr f hf
  · obtain ⟨w, hw, ht⟩ := List.mem_flatMap.mp h
    rw [assemble_wrappers] at hw
    obtain ⟨planned, hm, rfl⟩ := List.mem_map.mp hw
    obtain ⟨hp, hres, _⟩ := resolves_wrapped hm
    rcases List.mem_append.mp ht with ht | ht
    · obtain ⟨a, ha, rfl⟩ := List.mem_map.mp ht
      exact .inl (hp a ha)
    · rcases hres t ht with ht | ⟨r, hr, rfl⟩
      · exact .inl ht
      · refine .inr ⟨r, ?_, rfl⟩
        rw [assemble_records]
        apply List.mem_append_right
        apply List.mem_append_right
        exact List.mem_filterMap.mpr ⟨planned, hm, hr⟩

theorem tableClasses_names (s : Schema) (plans : List Plan) :
    ((tableClasses (namesFor s plans) s.catalog).map Noted.value).map RecordClass.className =
      (namesFor s plans).tables.filterMap id := by
  have hl : (namesFor s plans).tables.length = s.catalog.tables.entries.length := by
    simpa using congrArg List.length (isSome_tables s plans)
  have hz := map_snd_zip_eq_take s.catalog.tables.entries (namesFor s plans).tables
  rw [← hl, List.take_length] at hz
  rw [← hz, tableClasses, List.map_filterMap, List.map_filterMap, List.filterMap_map]
  congr 1
  funext x
  obtain ⟨t, name⟩ := x
  cases name <;> rfl

theorem compositeClasses_names (s : Schema) (plans : List Plan) :
    ((compositeClasses (namesFor s plans) s.catalog).map Noted.value).map RecordClass.className =
      (namesFor s plans).composites := by
  have hz := map_snd_zip_eq_take s.catalog.composites.entries (namesFor s plans).composites
  rw [← length_composites s plans, List.take_length] at hz
  rw [← hz, compositeClasses, List.map_map, List.map_map]
  rfl

theorem wrapped_names (s : Schema) (plans : List Plan) :
    (((wrapped s plans).filterMap Prod.snd).map RecordClass.className).Sublist
      ((resultClasses s.catalog (grantsFor s plans)).filterMap id) := by
  have hz := map_snd_zip_eq_take
    ((s.functions.zip ((functionGrants s.functions).map Grant.name)).zip plans)
    (resultClasses s.catalog (grantsFor s plans))
  have ht := (List.take_sublist ((s.functions.zip ((functionGrants s.functions).map
    Grant.name)).zip plans).length (resultClasses s.catalog (grantsFor s plans))).filterMap id
  rw [← hz, List.filterMap_map] at ht
  rw [wrapped, List.filterMap_map, List.map_filterMap]
  refine List.Sublist.trans (filterMap_sublist ?_ _) ht
  rintro ⟨⟨⟨f, identifier⟩, plan⟩, resultClass⟩
  cases hr : (result (namesFor s plans) s.catalog f resultClass plan).value.2 with
  | none => exact .inl (congrArg (Option.map RecordClass.className) hr)
  | some r =>
    obtain ⟨columns, className, _, hc, rfl⟩ := result_record hr
    refine .inr ((congrArg (Option.map RecordClass.className) hr).trans ?_)
    exact hc.symm

/-- The names of the classes of a binding are among the granted ones, in the same order. -/
theorem classes_sublist (s : Schema) (plans : List (Plan × List Diagnostic)) :
    (((assemble s plans).enums.map EnumClass.ref).map EnumRef.className ++
      (assemble s plans).records.map RecordClass.className).Sublist
        (Grant.granted (grantsFor s (plans.map Prod.fst))) := by
  rw [granted_eq_classNames s.catalog, assemble_enums, assemble_records, List.map_append,
    List.map_append, tableClasses_names, compositeClasses_names]
  apply List.Sublist.append_left
  apply List.Sublist.append_left
  apply List.Sublist.append_left
  exact wrapped_names s (plans.map Prod.fst)

theorem nodup_classes (s : Schema) (plans : List (Plan × List Diagnostic)) :
    (((assemble s plans).enums.map EnumClass.ref).map EnumRef.className ++
      (assemble s plans).records.map RecordClass.className).Nodup :=
  (Grant.granted_answerEach _ _ _).1.sublist (classes_sublist s plans)

theorem mem_records_of_names {s : Schema} {plans : List (Plan × List Diagnostic)}
    {className : Text} (h : (namesFor s (plans.map Prod.fst)).Names (.record className)) :
    className ∈ (assemble s plans).records.map RecordClass.className := by
  rw [assemble_records, List.map_append, List.map_append, tableClasses_names,
    compositeClasses_names]
  cases h with
  | table ht =>
    exact List.mem_append_left _ (List.mem_filterMap.mpr ⟨_, ht, rfl⟩)
  | composite hc => exact List.mem_append_right _ (List.mem_append_left _ hc)

theorem exists_typeOf? {s : Schema} {plans : List Plan} {raw : Text} {target : Target}
    (hc : s.Covers plans raw) (ht : (s.catalog.lookup raw).target = some target)
    (h : s.catalog.Has target) : ∃ t, (namesFor s plans).typeOf? target = some t := by
  cases target with
  | enum i =>
    have hi : i < (namesFor s plans).enums.length := by
      rw [length_enums]
      exact h
    exact ⟨_, by rw [ClassNames.typeOf?, List.getElem?_eq_getElem hi]; rfl⟩
  | composite i =>
    have hi : i < (namesFor s plans).composites.length := by
      rw [length_composites]
      exact h
    exact ⟨_, by rw [ClassNames.typeOf?, List.getElem?_eq_getElem hi]; rfl⟩
  | table i =>
    obtain ⟨className, hn⟩ := exists_table_class_iff.mpr ⟨h, hc i ht h⟩
    exact ⟨_, by rw [ClassNames.typeOf?, hn]; rfl⟩
  | scalar scalar => exact ⟨_, rfl⟩

theorem exists_assemble {s : Schema} {strict : Bool} {b : Binding} (h : build s strict = .ok b) :
    ∃ plans, b = assemble s plans := by
  rw [build] at h
  cases hp : s.functions.mapM (Plan.ofSignature s.catalog strict) with
  | error e =>
    rw [hp] at h
    cases h
  | ok plans =>
    rw [hp] at h
    cases h
    exact ⟨plans, rfl⟩

/--
No reference dangles: in whatever depth of arrays a field, a parameter or a result names a record
class or an enum, exactly one generated class has that name, and a type that is left as it was
written refers to no entry of the catalog.
-/
theorem build_refers_to_classes {s : Schema} {strict : Bool} {b : Binding}
    (h : build s strict = .ok b) {t : ValueType} (ht : t ∈ b.types) (n : Nat) :
    (∀ className, t = .arrayOf n (.record className) →
      (b.records.map RecordClass.className).count className = 1) ∧
    (∀ ref, t = .arrayOf n (.enum ref) → (b.enums.map EnumClass.ref).count ref = 1) ∧
    ∀ raw target, t = .arrayOf n (.unknown raw) → (s.catalog.lookup raw).target = some target →
      ¬ s.catalog.Has target := by
  obtain ⟨plans, rfl⟩ := exists_assemble h
  have hn := List.nodup_append.mp (nodup_classes s plans)
  rcases resolves_types ht with ⟨raw, hc, rfl⟩ | ⟨r, hr, rfl⟩
  · have hr := (namesFor s (plans.map Prod.fst)).resolve_cases s.catalog raw
    refine ⟨?_, ?_, ?_⟩
    · intro className he
      rw [he, ValueType.element_arrayOf] at hr
      rcases hr with hr | ⟨hu, _⟩
      · exact List.count_eq_one_of_mem hn.2.1 (mem_records_of_names hr)
      · cases hu
    · intro ref he
      rw [he, ValueType.element_arrayOf] at hr
      rcases hr with hr | ⟨hu, _⟩
      · cases hr with
        | enum hm =>
          apply List.count_eq_one_of_mem (List.Nodup.of_map _ hn.1)
          rw [assemble_enums]
          exact hm
      · cases hu
    · intro written target he htarget hhas
      rw [he, ValueType.element_arrayOf] at hr
      rcases hr with hr | ⟨hu, hnone⟩
      · cases hr
      · cases hu
        obtain ⟨t, ht⟩ := exists_typeOf? hc htarget hhas
        rw [hnone target htarget] at ht
        cases ht
  · have he (t : ValueType) (heq : .record r.className = ValueType.arrayOf n t) :
        .record r.className = t.element := by
      have hel := congrArg ValueType.element heq
      rwa [ValueType.element_arrayOf] at hel
    refine ⟨?_, ?_, ?_⟩
    · intro className heq
      cases he _ heq
      exact List.count_eq_one_of_mem hn.2.1 (List.mem_map_of_mem hr)
    · intro ref heq
      cases he _ heq
    · intro raw target heq
      cases he _ heq

/-- A composite type that holds an array of an enum, and a function that takes an array of it. -/
def moodSchema : Schema where
  catalog := {
    composites := ⟨[⟨['c'], [⟨['m'], "mood[]".toList, true, none⟩]⟩], [(['c'], 0)]⟩
    enums := ⟨[⟨"mood".toList, ["ok".toList]⟩], [("mood".toList, 0)]⟩ }
  functions := [⟨['f'], ['f'], none, [⟨none, .input, "c[]".toList, none⟩], ⟨.void, false⟩, .start⟩]

theorem build_refers_to_classes_in_arrays :
    ∃ b, build moodSchema true = .ok b ∧
      (ValueType.array (.record ['C']) ∈ b.types ∧
        (b.records.map RecordClass.className).count ['C'] = 1) ∧
      ValueType.array (.enum ⟨"mood".toList, "Mood".toList⟩) ∈ b.types ∧
        (b.enums.map EnumClass.ref).count ⟨"mood".toList, "Mood".toList⟩ = 1 := by
  have hb : build moodSchema true = .ok
      { enums := [⟨"mood".toList, "Mood".toList, [⟨"OK".toList, "ok".toList⟩]⟩]
        records := [⟨['C'], ['c'], .composite, [⟨['m'], ['m'], "mood[]".toList,
          .array (.enum ⟨"mood".toList, "Mood".toList⟩), true, false⟩]⟩]
        wrappers := [⟨['f'], ['f'], ['f'], none, [⟨none, "arg1".toList, "c[]".toList,
          .array (.record ['C']), false, false, none, false⟩], ⟨.void, false⟩, .void⟩] } := by
    decide +kernel
  refine ⟨_, hb, ⟨by decide, ?_⟩, by decide, ?_⟩
  · exact (build_refers_to_classes hb (by decide) 1).1 _ rfl
  · exact (build_refers_to_classes hb (by decide) 1).2.1 _ rfl

end Binding

end Bindery
