import Bindery.Proofs.Basic.Lists
import Bindery.Proofs.Binding.References
import Bindery.Proofs.Name.Naming
import Bindery.Proofs.Schema.Parsed

namespace Bindery

theorem Plan.missing_of_ofSignature {c : Catalog} {strict : Bool} {f : Signature}
    {p : Plan × List Diagnostic} (h : ofSignature c strict f = .ok p) :
    ∀ d ∈ p.2, ∃ typeName function fallback, d = .missingSchema typeName function fallback := by
  intro d hd
  cases hk : f.returns.kind with
  | tableRows raw =>
    simp only [ofSignature, hk] at h
    split at h
    · cases h
      cases hd
    · split at h
      · cases h
      · split at h
        · cases h
          exact ⟨_, _, _, List.mem_singleton.mp hd⟩
        · cases h
          exact ⟨_, _, _, List.mem_singleton.mp hd⟩
  | _ =>
    simp only [ofSignature, hk] at h
    cases h
    cases hd

namespace Binding

def planned (s : Schema) (plans : List Plan) : List ((Signature × Text) × Plan) :=
  (s.functions.zip ((functionGrants s.functions).map Grant.name)).zip plans

def placed (s : Schema) (plans : List Plan) :
    List (((Signature × Text) × Plan) × Option Text) :=
  (planned s plans).zip (resultClasses s.catalog (grantsFor s plans))

def wrapperAt (s : Schema) (plans : List Plan)
    (z : ((Signature × Text) × Plan) × Option Text) : Noted (Wrapper × Option RecordClass) :=
  wrapper (namesFor s plans) s.catalog z.1.1.1 z.1.1.2 z.1.2 z.2

theorem wrapped_eq (s : Schema) (plans : List Plan) :
    wrapped s plans = (placed s plans).map fun z => (wrapperAt s plans z).value :=
  rfl

/-- The grants for classes, cut into those for enums, tables, composite types and results. -/
structure GrantParts (s : Schema) (plans : List Plan) where
  enums : List Grant
  tables : List (Option Grant)
  composites : List Grant
  results : List (Option Grant)
  eq_append : grantsFor s plans = enums.map some ++ (tables ++ (composites.map some ++ results))
  enums_answer : ∃ taken, enums = Grant.answerAll "" taken
    (s.catalog.enums.entries.map enumRequest)
  tables_answer : ∃ taken, tables = Grant.answerEach "" taken
    (tableRequests s.catalog.tables.entries (s.reachableTables plans))
  composites_answer : ∃ taken, composites = Grant.answerAll "" taken
    (s.catalog.composites.entries.map compositeRequest)
  results_answer : ∃ taken, results = Grant.answerEach "" taken
    ((planned s plans).map fun z => resultRequest? z.1.1 z.1.2 z.2)

theorem nonempty_grantParts (s : Schema) (plans : List Plan) : Nonempty (GrantParts s plans) := by
  have hg : grantsFor s plans = Grant.answerEach "" reservedClasses
      (s.catalog.enums.entries.map (some ∘ enumRequest) ++
        (tableRequests s.catalog.tables.entries (s.reachableTables plans) ++
          (s.catalog.composites.entries.map (some ∘ compositeRequest) ++
            (planned s plans).map fun z => resultRequest? z.1.1 z.1.2 z.2))) := by
    rw [← List.append_assoc, ← List.append_assoc]
    rfl
  obtain ⟨afterEnums, he⟩ := Grant.exists_answerEach_append "" reservedClasses
    (s.catalog.enums.entries.map (some ∘ enumRequest)) _
  obtain ⟨afterTables, ht⟩ := Grant.exists_answerEach_append "" afterEnums
    (tableRequests s.catalog.tables.entries (s.reachableTables plans)) _
  obtain ⟨afterComposites, hc⟩ := Grant.exists_answerEach_append "" afterTables
    (s.catalog.composites.entries.map (some ∘ compositeRequest)) _
  rw [he, ht, hc, ← List.map_map, ← Grant.map_some_answerAll, ← List.map_map,
    ← Grant.map_some_answerAll] at hg
  exact ⟨⟨_, _, _, _, hg, ⟨_, rfl⟩, ⟨_, rfl⟩, ⟨_, rfl⟩, ⟨_, rfl⟩⟩⟩

namespace GrantParts

variable {s : Schema} {plans : List Plan} (parts : GrantParts s plans)

theorem length_enums : parts.enums.length = s.catalog.enums.entries.length := by
  obtain ⟨taken, h⟩ := parts.enums_answer
  rw [h, Grant.length_answerAll, List.length_map]

theorem length_tables : parts.tables.length = s.catalog.tables.entries.length := by
  obtain ⟨taken, h⟩ := parts.tables_answer
  rw [h, Grant.length_answerEach, tableRequests, List.length_map, List.length_zipIdx]

theorem length_composites : parts.composites.length = s.catalog.composites.entries.length := by
  obtain ⟨taken, h⟩ := parts.composites_answer
  rw [h, Grant.length_answerAll, List.length_map]

theorem length_results : parts.results.length = (planned s plans).length := by
  obtain ⟨taken, h⟩ := parts.results_answer
  rw [h, Grant.length_answerEach, List.length_map]

theorem names_enums : (namesFor s plans).enums = (s.catalog.enums.entries.zip parts.enums).map
    fun (e, grant) => ⟨normalizeKey e.name, grant.name⟩ := by
  have hz : s.catalog.enums.entries.zip (grantsFor s plans) =
      s.catalog.enums.entries.zip (parts.enums.map some) := by
    rw [parts.eq_append, ← List.append_nil s.catalog.enums.entries,
      List.zip_append (by rw [List.length_map, parts.length_enums]), List.zip_nil_left,
      List.append_nil, List.append_nil]
  rw [namesFor, classNames, hz, List.zip_map_right, List.filterMap_map]
  exact congrFun List.filterMap_eq_map _

theorem names_results : resultClasses s.catalog (grantsFor s plans) =
    parts.results.map fun grant => grant.map Grant.name := by
  have he : (parts.enums.map some).length = s.catalog.enums.entries.length := by
    rw [List.length_map, parts.length_enums]
  have hc : (parts.composites.map some).length = s.catalog.composites.entries.length := by
    rw [List.length_map, parts.length_composites]
  rw [resultClasses, ← List.drop_drop, ← List.drop_drop, parts.eq_append, List.drop_left' he,
    List.drop_left' parts.length_tables, List.drop_left' hc]

end GrantParts

theorem exists_plans {s : Schema} {strict : Bool} {b : Binding} (h : build s strict = .ok b) :
    ∃ plans, s.functions.map (Plan.ofSignature s.catalog strict) = plans.map .ok ∧
      b = assemble s plans := by
  obtain ⟨plans, hp, h⟩ := bind_eq_ok_iff.mp h
  cases h
  exact ⟨plans, map_of_mapM hp, rfl⟩

section Planned

variable {s : Schema} {strict : Bool} {plans : List (Plan × List Diagnostic)}
  (hp : s.functions.map (Plan.ofSignature s.catalog strict) = plans.map .ok)

include hp

theorem length_plans : (plans.map Prod.fst).length = s.functions.length := by
  simpa using (congrArg List.length hp).symm

theorem exists_signature {p : Plan × List Diagnostic} (hm : p ∈ plans) :
    ∃ f ∈ s.functions, Plan.ofSignature s.catalog strict f = .ok p := by
  have hok : Except.ok p ∈ s.functions.map (Plan.ofSignature s.catalog strict) := by
    rw [hp]
    exact List.mem_map_of_mem hm
  exact List.mem_map.mp hok

theorem missing_of_plans : ∀ d ∈ plans.flatMap Prod.snd,
    ∃ typeName function fallback, d = .missingSchema typeName function fallback := by
  intro d hd
  obtain ⟨p, hm, hd⟩ := List.mem_flatMap.mp hd
  obtain ⟨f, -, hf⟩ := exists_signature hp hm
  exact Plan.missing_of_ofSignature hf d hd

end Planned

section Placed

variable {s : Schema} {plans : List Plan}

theorem map_placed (hl : plans.length = s.functions.length) :
    (placed s plans).map (fun z => z.1.1.1) = s.functions ∧
      (placed s plans).map (fun z => z.1.1.2) = (functionGrants s.functions).map Grant.name ∧
      (placed s plans).map (fun z => z.1.2) = plans := by
  obtain ⟨parts⟩ := nonempty_grantParts s plans
  have hg : ((functionGrants s.functions).map Grant.name).length = s.functions.length := by
    simp [functionGrants, Grant.length_answerAll]
  have hlen : (s.functions.zip ((functionGrants s.functions).map Grant.name)).length =
      plans.length := by
    rw [List.length_zip, hg, hl, Nat.min_self]
  have hr : (resultClasses s.catalog (grantsFor s plans)).length = (planned s plans).length := by
    rw [parts.names_results, List.length_map, parts.length_results]
  have hz : (placed s plans).map Prod.fst = planned s plans :=
    List.map_fst_zip (Nat.le_of_eq hr.symm)
  have hf : (planned s plans).map Prod.fst =
      s.functions.zip ((functionGrants s.functions).map Grant.name) :=
    List.map_fst_zip (Nat.le_of_eq hlen)
  have hp : (planned s plans).map Prod.snd = plans := List.map_snd_zip (Nat.le_of_eq hlen.symm)
  rw [← hz, List.map_map] at hf hp
  have hfst := congrArg (List.map Prod.fst) hf
  have hsnd := congrArg (List.map Prod.snd) hf
  rw [List.map_map, List.map_fst_zip (Nat.le_of_eq hg.symm)] at hfst
  rw [List.map_map, List.map_snd_zip (Nat.le_of_eq hg)] at hsnd
  exact ⟨hfst, hsnd, hp⟩

end Placed

theorem enums_eq {s : Schema} {plans : List (Plan × List Diagnostic)} : (assemble s plans).enums =
    (s.catalog.enums.entries.zip (namesFor s (plans.map Prod.fst)).enums).map
      fun (e, ref) => (enumClass e ref).value := by
  simp only [assemble, Noted.all, List.map_map]
  rfl

theorem record?_of_mem {s : Schema} {plans : List (Plan × List Diagnostic)} {r : RecordClass}
    (h : r ∈ (assemble s plans).records) :
    (assemble s plans).record? r.className = some r := by
  have hn := (List.nodup_append.mp (nodup_classes s plans)).2.1
  cases hf : (assemble s plans).record? r.className with
  | none => exact absurd (List.find?_eq_none.mp hf r h) (by simp)
  | some found =>
    have he : found.className = r.className := by simpa using List.find?_some hf
    rw [List.inj_on_of_nodup_map hn (List.mem_of_find?_eq_some hf) h he]

theorem mem_records_of_wrapped {s : Schema} {plans : List (Plan × List Diagnostic)}
    {w : Wrapper × Option RecordClass} {r : RecordClass}
    (h : w ∈ wrapped s (plans.map Prod.fst)) (hr : w.2 = some r) :
    r ∈ (assemble s plans).records := by
  rw [assemble_records]
  apply List.mem_append_right
  apply List.mem_append_right
  exact List.mem_filterMap.mpr ⟨w, h, hr⟩

theorem exists_wrapper {s : Schema} {plans : List (Plan × List Diagnostic)}
    (hl : (plans.map Prod.fst).length = s.functions.length) {k : Nat} {f : Signature}
    (hf : s.functions[k]? = some f) : ∃ plan identifier resultClass,
      (plans.map Prod.fst)[k]? = some plan ∧
      (assemble s plans).wrappers[k]? = some (wrapper (namesFor s (plans.map Prod.fst)) s.catalog f
        identifier plan resultClass).value.1 ∧
      (wrapper (namesFor s (plans.map Prod.fst)) s.catalog f identifier plan resultClass).value ∈
        wrapped s (plans.map Prod.fst) := by
  obtain ⟨hfunctions, _, hplans⟩ := map_placed hl
  rw [← hfunctions, List.getElem?_map] at hf
  obtain ⟨z, hz, rfl⟩ := Option.map_eq_some_iff.mp hf
  refine ⟨z.1.2, z.1.1.2, z.2, ?_, ?_, ?_⟩
  · rw [← hplans, List.getElem?_map, hz]
    rfl
  · rw [assemble_wrappers, wrapped_eq, List.map_map, List.getElem?_map, hz]
    rfl
  · exact List.mem_map_of_mem (List.mem_of_getElem? hz)

end Binding

end Bindery
