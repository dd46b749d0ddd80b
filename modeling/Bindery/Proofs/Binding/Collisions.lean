import Bindery.Proofs.Binding.Assembly
import Mathlib.Data.List.Zip

namespace Bindery

/-- How notices call a record class that was declared as a table or a composite type. -/
def RecordClass.declaredAs? (r : RecordClass) : Option Text :=
  match r.origin with
  | .table => some ("table " ++ r.sqlName)
  | .composite => some ("type " ++ r.sqlName)
  | .result => none

namespace Binding

def ownRecord? (b : Binding) (w : Wrapper) : Option RecordClass :=
  match w.result with
  | .record className => (b.record? className).filter fun r => r.origin == .result
  | _ => none

section Parts

variable (names : ClassNames) (catalog : Catalog)

end Parts

section Classes

variable {s : Schema} {plans : List Plan} (parts : GrantParts s plans)

end Classes

section Own

variable {s : Schema} {plans : List (Plan × List Diagnostic)}

theorem declaredAs?_of_mem_tables {names : ClassNames} {catalog : Catalog} {r : RecordClass}
    (h : r ∈ (tableClasses names catalog).map Noted.value) :
    ∃ owner, r.declaredAs? = some owner := by
  obtain ⟨noted, hn, rfl⟩ := List.mem_map.mp h
  obtain ⟨x, _, hx⟩ := List.mem_filterMap.mp hn
  obtain ⟨className, _, rfl⟩ := Option.map_eq_some_iff.mp hx
  exact ⟨_, rfl⟩

theorem declaredAs?_of_mem_composites {names : ClassNames} {catalog : Catalog} {r : RecordClass}
    (h : r ∈ (compositeClasses names catalog).map Noted.value) :
    ∃ owner, r.declaredAs? = some owner := by
  obtain ⟨noted, hn, rfl⟩ := List.mem_map.mp h
  obtain ⟨x, _, rfl⟩ := List.mem_map.mp hn
  exact ⟨_, rfl⟩

/-- A class that is named for a table or a composite type is that of a record declared so. -/
theorem exists_declared {className : Text}
    (h : (namesFor s (plans.map Prod.fst)).Names (.record className)) :
    ∃ r ∈ (assemble s plans).records, r.className = className ∧
      ∃ owner, r.declaredAs? = some owner := by
  rw [assemble_records]
  cases h with
  | table ht =>
    have hm : className ∈ (namesFor s (plans.map Prod.fst)).tables.filterMap id :=
      List.mem_filterMap.mpr ⟨_, ht, rfl⟩
    rw [← tableClasses_names] at hm
    obtain ⟨r, hr, he⟩ := List.mem_map.mp hm
    exact ⟨r, List.mem_append_left _ hr, he, declaredAs?_of_mem_tables hr⟩
  | composite hc =>
    rw [← compositeClasses_names] at hc
    obtain ⟨r, hr, he⟩ := List.mem_map.mp hc
    exact ⟨r, List.mem_append_right _ (List.mem_append_left _ hr), he,
      declaredAs?_of_mem_composites hr⟩

theorem names_of_recordClass? {names : ClassNames} {catalog : Catalog} {raw className : Text}
    (h : names.recordClass? catalog raw = some className) : names.Names (.record className) := by
  have hr := names.resolve_cases catalog raw
  rw [ClassNames.resolve_of_recordClass? h] at hr
  rcases hr with hr | ⟨hu, _⟩
  · exact hr
  · cases hu

theorem ownRecord?_of_mem {z : ((Signature × Text) × Plan) × Option Text}
    (hz : z ∈ placed s (plans.map Prod.fst)) :
    (assemble s plans).ownRecord? (wrapperAt s (plans.map Prod.fst) z).value.1 =
      (wrapperAt s (plans.map Prod.fst) z).value.2 := by
  have hw : (wrapperAt s (plans.map Prod.fst) z).value ∈ wrapped s (plans.map Prod.fst) :=
    List.mem_map_of_mem hz
  obtain ⟨⟨⟨f, identifier⟩, plan⟩, resultClass⟩ := z
  cases plan with
  | record raw =>
    simp only [wrapperAt, wrapper, result, ownRecord?]
    cases hc : (namesFor s (plans.map Prod.fst)).recordClass? s.catalog raw with
    | none => rfl
    | some className =>
      obtain ⟨r, hr, rfl, owner, ho⟩ := exists_declared (names_of_recordClass? hc)
      have horigin : r.origin ≠ .result := by
        intro he
        rw [RecordClass.declaredAs?, he] at ho
        cases ho
      change ((assemble s plans).record? r.className).filter _ = none
      rw [record?_of_mem hr]
      simpa using horigin
  | explicit columns =>
    cases resultClass with
    | none => rfl
    | some className =>
      have hm : (wrapperAt s (plans.map Prod.fst)
          (((f, identifier), .explicit columns), some className)).value.2 = some (recordClass
            (namesFor s (plans.map Prod.fst)) s.catalog ("result of function " ++ f.name)
            f.callName .result columns className).value := rfl
      have hin : (recordClass (namesFor s (plans.map Prod.fst)) s.catalog
          ("result of function " ++ f.name) f.callName .result columns className).value ∈
            (assemble s plans).records := mem_records_of_wrapped hw hm
      change ((assemble s plans).record? className).filter _ = _
      rw [hm]
      exact congrArg (Option.filter _) (record?_of_mem hin)
  | _ => rfl

end Own

section Assembled

variable {s : Schema} {plans : List (Plan × List Diagnostic)}

theorem assemble_diagnostics : (assemble s plans).diagnostics =
    s.diagnostics ++ Grant.notices (functionGrants s.functions) ++ plans.flatMap Prod.snd ++
      Grant.notices ((grantsFor s (plans.map Prod.fst)).filterMap id) ++
      (s.catalog.enums.entries.zip (namesFor s (plans.map Prod.fst)).enums).flatMap
        (fun x => (enumClass x.1 x.2).notices) ++
      (tableClasses (namesFor s (plans.map Prod.fst)) s.catalog).flatMap Noted.notices ++
      (compositeClasses (namesFor s (plans.map Prod.fst)) s.catalog).flatMap Noted.notices ++
      (placed s (plans.map Prod.fst)).flatMap
        fun z => (wrapperAt s (plans.map Prod.fst) z).notices := by
  simp only [assemble, Noted.all, List.flatMap_map]
  rfl

theorem declaredAs?_of_mem_wrapped {shapes : List Plan} {r : RecordClass}
    (h : r ∈ (wrapped s shapes).filterMap Prod.snd) : r.declaredAs? = none := by
  obtain ⟨w, hw, hr⟩ := List.mem_filterMap.mp h
  obtain ⟨f, identifier, plan, resultClass, _, rfl⟩ := exists_planned hw
  obtain ⟨columns, className, _, _, rfl⟩ := result_record hr
  rfl

/-- What is read off the declared records comes from the tables and the composite types. -/
theorem records_declared {β : Type} (g : RecordClass → Text → List β) :
    (assemble s plans).records.flatMap (fun r => r.declaredAs?.toList.flatMap (g r)) =
      ((tableClasses (namesFor s (plans.map Prod.fst)) s.catalog).map Noted.value).flatMap
          (fun r => r.declaredAs?.toList.flatMap (g r)) ++
        ((compositeClasses (namesFor s (plans.map Prod.fst)) s.catalog).map Noted.value).flatMap
          fun r => r.declaredAs?.toList.flatMap (g r) := by
  have hown : ((wrapped s (plans.map Prod.fst)).filterMap Prod.snd).flatMap
      (fun r => r.declaredAs?.toList.flatMap (g r)) = [] := by
    rw [List.flatMap_eq_nil_iff]
    intro r hr
    rw [declaredAs?_of_mem_wrapped hr]
    rfl
  rw [assemble_records, List.flatMap_append, List.flatMap_append, hown, List.append_nil]

end Assembled

end Binding

end Bindery
