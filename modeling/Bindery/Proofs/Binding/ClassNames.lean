import Bindery.Binding.Build
import Bindery.Proofs.Basic.Lists
import Bindery.Proofs.Name.Grant

namespace Bindery

theorem Grant.length_granted {grants : List (Option Grant)} {n : Nat}
    (h : grants.map Option.isSome = List.replicate n true) : (granted grants).length = n := by
  have hl : grants.length = n := by simpa using congrArg List.length h
  rw [← hl, granted, List.filterMap_length_eq_length]
  intro grant hg
  rw [Option.isSome_map]
  exact List.eq_of_mem_replicate (h ▸ List.mem_map_of_mem hg)

namespace Binding

/-- The grants for the classes of a schema whose functions are planned. -/
def grantsFor (s : Schema) (plans : List Plan) : List (Option Grant) :=
  classGrants s ((functionGrants s.functions).map Grant.name) plans

/-- The names of the classes of a schema whose functions are planned. -/
def namesFor (s : Schema) (plans : List Plan) : ClassNames :=
  classNames s.catalog (grantsFor s plans)

/-- The requests for classes: of enums, of reachable tables, of composite types and of results. -/
inductive RequestsClass (s : Schema) (identifiers : List Text) (plans : List Plan) : Request → Prop
  | enum {e : EnumType} (h : e ∈ s.catalog.enums.entries) :
      RequestsClass s identifiers plans (enumRequest e)
  | table {t : Table} {i : Nat} (h : (t, i) ∈ s.catalog.tables.entries.zipIdx)
      (hr : i ∈ s.reachableTables plans) : RequestsClass s identifiers plans (tableRequest t)
  | composite {c : Composite} (h : c ∈ s.catalog.composites.entries) :
      RequestsClass s identifiers plans (compositeRequest c)
  | result {f : Signature} {identifier : Text} {columns : List Column}
      (h : ((f, identifier), Plan.explicit columns) ∈ (s.functions.zip identifiers).zip plans) :
      RequestsClass s identifiers plans
        ⟨Name.resultClass identifier, none, "result of function " ++ f.name⟩

theorem RequestsClass.alternative {s : Schema} {identifiers : List Text} {plans : List Plan}
    {r : Request} (h : RequestsClass s identifiers plans r) : r.alternative = none := by
  cases h <;> rfl

theorem exists_classRequests (s : Schema) (identifiers : List Text) (plans : List Plan) :
    ∃ requests, classGrants s identifiers plans = Grant.answerEach "" reservedClasses requests ∧
      ∀ r, some r ∈ requests ↔ RequestsClass s identifiers plans r := by
  refine ⟨_, rfl, ?_⟩
  intro r
  simp only [List.mem_append, List.mem_map]
  constructor
  · rintro (((⟨e, h, he⟩ | ht) | ⟨c, h, hc⟩) | ⟨⟨⟨f, identifier⟩, plan⟩, h, hf⟩)
    · cases he
      exact .enum h
    · obtain ⟨⟨t, i⟩, h, ht⟩ := List.mem_map.mp ht
      dsimp only at ht
      split at ht
      · rename_i hr
        cases ht
        exact .table h (List.contains_iff_mem.mp hr)
      · cases ht
    · cases hc
      exact .composite h
    · cases plan <;> cases hf
      exact .result h
  · intro h
    cases h with
    | enum h => exact .inl (.inl (.inl ⟨_, h, rfl⟩))
    | table h hr =>
      refine .inl (.inl (.inr (List.mem_map.mpr ⟨_, h, ?_⟩)))
      exact if_pos (List.contains_iff_mem.mpr hr)
    | composite h => exact .inl (.inr ⟨_, h, rfl⟩)
    | result h => exact .inr ⟨_, h, rfl⟩

/-- A class gets a name that is neither imported nor numbered exactly if some request wants it. -/
theorem mem_granted_classGrants_iff {s : Schema} {identifiers : List Text} {plans : List Plan}
    {name : Text} (hr : name ∉ reservedClasses) (hn : Grant.isNumbered name = false) :
    name ∈ Grant.granted (classGrants s identifiers plans) ↔
      ∃ r, RequestsClass s identifiers plans r ∧ r.wanted = name := by
  obtain ⟨requests, hg, hm⟩ := exists_classRequests s identifiers plans
  have ha : ∀ r, some r ∈ requests → r.alternative = none :=
    fun r h => ((hm r).mp h).alternative
  rw [hg, Grant.mem_granted_answerEach_iff ha hr hn]
  simp only [hm]

section

variable (c : Catalog) (grants : List (Option Grant))

theorem enums_classNames : (classNames c grants).enums.map EnumRef.className =
    Grant.granted (grants.take c.enums.entries.length) := by
  rw [← map_snd_zip_eq_take, Grant.granted, List.filterMap_map]
  simp only [classNames, List.map_filterMap, Option.map_map]
  rfl

theorem tables_classNames : (classNames c grants).tables.filterMap id =
    Grant.granted ((grants.drop c.enums.entries.length).take c.tables.entries.length) := by
  simp only [classNames, List.filterMap_map]
  rfl

theorem composites_classNames : (classNames c grants).composites =
    Grant.granted (((grants.drop c.enums.entries.length).drop c.tables.entries.length).take
      c.composites.entries.length) := rfl

theorem resultClasses_granted : (resultClasses c grants).filterMap id =
    Grant.granted (((grants.drop c.enums.entries.length).drop c.tables.entries.length).drop
      c.composites.entries.length) := by
  simp only [resultClasses, List.filterMap_map, List.drop_drop]
  rfl

/-- The granted names are those of the enums, tables, composite types and results, in this order. -/
theorem granted_eq_classNames : Grant.granted grants =
    (classNames c grants).enums.map EnumRef.className ++
      ((classNames c grants).tables.filterMap id ++ ((classNames c grants).composites ++
        (resultClasses c grants).filterMap id)) := by
  rw [enums_classNames, tables_classNames, composites_classNames, resultClasses_granted,
    ← Grant.granted_append, List.take_append_drop, ← Grant.granted_append, List.take_append_drop,
    ← Grant.granted_append, List.take_append_drop]

end

theorem isSome_tableRequests (tables : List Table) (reachable : List Nat) :
    (tableRequests tables reachable).map Option.isSome =
      (List.range tables.length).map fun i => reachable.contains i := by
  have hi : (fun x : Table × Nat => (if reachable.contains x.2 then some (tableRequest x.1)
      else none).isSome) = (fun i => reachable.contains i) ∘ Prod.snd := by
    funext x
    rw [Function.comp_apply]
    split <;> simp_all
  rw [tableRequests, List.map_map]
  change tables.zipIdx.map (fun x : Table × Nat => (if reachable.contains x.2
    then some (tableRequest x.1) else none).isSome) = _
  rw [hi, ← List.map_map, List.zipIdx_map_snd, List.range_eq_range']

/-- Grants stand where they were asked for: at all enums, reachable tables and composite types. -/
theorem isSome_grantsFor (s : Schema) (plans : List Plan) :
    ∃ results : List Bool, (grantsFor s plans).map Option.isSome =
      List.replicate s.catalog.enums.entries.length true ++
        ((List.range s.catalog.tables.entries.length).map
            (fun i => (s.reachableTables plans).contains i) ++
          (List.replicate s.catalog.composites.entries.length true ++ results)) := by
  have ha {α : Type} (f : α → Request) (xs : List α) :
      (xs.map (some ∘ f)).map Option.isSome = List.replicate xs.length true := by
    rw [List.map_map]
    exact List.map_eq_replicate_iff.mpr fun _ _ => rfl
  rw [grantsFor, classGrants, Grant.isSome_answerEach]
  simp only [List.map_append, List.append_assoc, ha, isSome_tableRequests]
  exact ⟨_, rfl⟩

theorem length_enums (s : Schema) (plans : List Plan) :
    (namesFor s plans).enums.length = s.catalog.enums.entries.length := by
  obtain ⟨results, hs⟩ := isSome_grantsFor s plans
  rw [← List.length_map (f := EnumRef.className), namesFor, enums_classNames]
  apply Grant.length_granted
  rw [List.map_take, hs, List.take_left' (List.length_replicate ..)]

theorem length_composites (s : Schema) (plans : List Plan) :
    (namesFor s plans).composites.length = s.catalog.composites.entries.length := by
  obtain ⟨results, hs⟩ := isSome_grantsFor s plans
  rw [namesFor, composites_classNames]
  apply Grant.length_granted
  rw [List.map_take, List.map_drop, List.map_drop, hs, List.drop_left' (List.length_replicate ..),
    List.drop_left' (by simp), List.take_left' (List.length_replicate ..)]

theorem isSome_tables (s : Schema) (plans : List Plan) :
    (namesFor s plans).tables.map Option.isSome =
      (List.range s.catalog.tables.entries.length).map
        fun i => (s.reachableTables plans).contains i := by
  obtain ⟨results, hs⟩ := isSome_grantsFor s plans
  have hn : (namesFor s plans).tables.map Option.isSome = (((grantsFor s plans).drop
      s.catalog.enums.entries.length).take s.catalog.tables.entries.length).map Option.isSome := by
    simp only [namesFor, classNames, List.map_map]
    congr 1
    funext grant
    exact Option.isSome_map
  rw [hn, List.map_take, List.map_drop, hs, List.drop_left' (List.length_replicate ..),
    List.take_left' (by simp)]

theorem exists_table_class_iff {s : Schema} {plans : List Plan} {i : Nat} :
    (∃ className, (namesFor s plans).tables[i]? = some (some className)) ↔
      i < s.catalog.tables.entries.length ∧ i ∈ s.reachableTables plans := by
  have ht := congrArg (·[i]?) (isSome_tables s plans)
  simp only [List.getElem?_map] at ht
  by_cases hi : i < s.catalog.tables.entries.length
  · rw [List.getElem?_range hi, Option.map_some] at ht
    obtain ⟨name, hn, hb⟩ := Option.map_eq_some_iff.mp ht
    rw [← List.contains_iff_mem, ← hb, hn]
    simp [hi, Option.isSome_iff_exists]
  · have hr : (List.range s.catalog.tables.entries.length)[i]? = none :=
      List.getElem?_eq_none (by simpa using hi)
    rw [hr, Option.map_none, Option.map_eq_none_iff] at ht
    simp [ht, hi]

end Binding

end Bindery
