import Bindery.Proofs.Binding.LegalNames
import Bindery.Proofs.Binding.ReachedTables
import Bindery.Proofs.Name.Capitals

namespace Bindery.Binding

/-- The SQL names of the records that were declared as tables or composite types. -/
def declaredNames (b : Binding) : List Text :=
  (b.records.filter fun r => r.origin != .result).map RecordClass.sqlName

section Assembled

variable {s : Schema} {plans : List (Plan × List Diagnostic)}

theorem sqlName_tableClasses (s : Schema) (plans : List Plan) :
    ((tableClasses (namesFor s plans) s.catalog).map Noted.value).map RecordClass.sqlName =
      (s.catalog.tables.entries.zipIdx.filter
        fun z => (s.reachableTables plans).contains z.2).map fun z => z.1.name := by
  rw [← List.forall₂_eq_eq_eq, List.forall₂_map_left_iff, List.forall₂_map_right_iff]
  exact ((describes_tableClasses s plans).imp fun _ _ h => h.sqlName).flip

theorem sqlName_compositeClasses (s : Schema) (plans : List Plan) :
    ((compositeClasses (namesFor s plans) s.catalog).map Noted.value).map RecordClass.sqlName =
      s.catalog.composites.entries.map Composite.name := by
  rw [compositeClasses, List.map_map, List.map_map]
  exact map_fst_of_zip (Nat.le_of_eq (length_composites s plans).symm) Composite.name

theorem declaredNames_assemble : (assemble s plans).declaredNames =
    (s.catalog.tables.entries.zipIdx.filter fun z =>
      (s.reachableTables (plans.map Prod.fst)).contains z.2).map (fun z => z.1.name) ++
        s.catalog.composites.entries.map Composite.name := by
  have hkeep {rs : List RecordClass} (h : ∀ r ∈ rs, r.origin ≠ .result) :
      rs.filter (fun r => r.origin != .result) = rs := by
    apply List.filter_eq_self.mpr
    intro r hr
    simpa using h r hr
  have hdrop : ((wrapped s (plans.map Prod.fst)).filterMap Prod.snd).filter
      (fun r => r.origin != .result) = [] := by
    apply List.filter_eq_nil_iff.mpr
    intro r hr
    simp [origin_of_mem_wrapped hr]
  rw [declaredNames, assemble_records, List.filter_append, List.filter_append, hdrop,
    hkeep fun r hr => by simp [origin_of_mem_tables hr],
    hkeep fun r hr => by simp [origin_of_mem_composites hr], List.append_nil, List.map_append,
    sqlName_tableClasses, sqlName_compositeClasses]

theorem exists_requestsClass_iff {identifiers : List Text} {name : Text}
    (h : ∀ identifier, Name.resultClass identifier ≠ name) :
    (∃ r, RequestsClass s identifiers (plans.map Prod.fst) r ∧ r.wanted = name) ↔
      (∃ e ∈ s.catalog.enums.entries, Name.enumClass e.name = name) ∨
        ∃ sqlName ∈ (assemble s plans).declaredNames, Name.recordClass sqlName = name := by
  rw [declaredNames_assemble]
  constructor
  · rintro ⟨r, hr, hw⟩
    cases hr with
    | @enum e he => exact .inl ⟨e, he, hw⟩
    | @table t i ht hi =>
      refine .inr ⟨t.name, List.mem_append_left _ (List.mem_map.mpr ⟨(t, i), ?_, rfl⟩), hw⟩
      exact List.mem_filter.mpr ⟨ht, List.contains_iff_mem.mpr hi⟩
    | @composite c hc =>
      exact .inr ⟨c.name, List.mem_append_right _ (List.mem_map_of_mem hc), hw⟩
    | @result f identifier columns _ => exact absurd hw (h identifier)
  · rintro (⟨e, he, hw⟩ | ⟨sqlName, hm, hw⟩)
    · exact ⟨_, .enum he, hw⟩
    · rcases List.mem_append.mp hm with hm | hm
      · obtain ⟨z, hz, rfl⟩ := List.mem_map.mp hm
        obtain ⟨ht, hi⟩ := List.mem_filter.mp hz
        exact ⟨_, .table ht (List.contains_iff_mem.mp hi), hw⟩
      · obtain ⟨c, hc, rfl⟩ := List.mem_map.mp hm
        exact ⟨_, .composite hc, hw⟩

theorem mem_classNamesInUse_of_granted {name : Text}
    (h : name ∈ Grant.granted (grantsFor s (plans.map Prod.fst)))
    (hr : name ∉ (resultClasses s.catalog (grantsFor s (plans.map Prod.fst))).filterMap id) :
    name ∈ (assemble s plans).classNamesInUse := by
  have he : (assemble s plans).enums.map EnumClass.className =
      ((assemble s plans).enums.map EnumClass.ref).map EnumRef.className := by
    rw [List.map_map]
    rfl
  rw [granted_eq_classNames s.catalog] at h
  rw [classNamesInUse, he, assemble_enums, assemble_records, List.map_append, List.map_append,
    tableClasses_names, compositeClasses_names]
  simp only [List.mem_append] at h ⊢
  rcases h with h | h | h | h
  · exact .inl h
  · exact .inr (.inl h)
  · exact .inr (.inr (.inl h))
  · exact absurd h hr

theorem getLast?_resultClasses {plans : List Plan} {name : Text}
    (h : name ∈ (resultClasses s.catalog (grantsFor s plans)).filterMap id) :
    name.getLast? = some 't' ∨ Grant.isNumbered name = true := by
  obtain ⟨parts⟩ := nonempty_grantParts s plans
  obtain ⟨taken, ha⟩ := parts.results_answer
  rw [parts.names_results, List.filterMap_map, ha] at h
  obtain ⟨r, hr, before, rfl⟩ := Grant.mem_granted_answerEach h
  obtain ⟨⟨⟨f, identifier⟩, plan⟩, -, hf⟩ := List.mem_map.mp hr
  apply Grant.answer_induction before
    (P := fun name => name.getLast? = some 't' ∨ Grant.isNumbered name = true)
  · cases plan <;> cases hf
    exact .inl (Name.getLast?_resultClass identifier)
  · intro name hs
    cases plan <;> cases hf
    cases hs
  · intro n
    exact .inr (Grant.isNumbered_numbered ..)

/-- A class is called by a reserved word exactly if an enum or a declared record wants the word. -/
theorem mem_classNamesInUse_iff {word : Text} (h : word ∈ Name.capitalKeywords) :
    word ∈ (assemble s plans).classNamesInUse ↔
      (∃ e ∈ s.catalog.enums.entries, Name.enumClass e.name = word) ∨
        ∃ sqlName ∈ (assemble s plans).declaredNames, Name.recordClass sqlName = word := by
  have hall : ∀ word ∈ Name.capitalKeywords, word ∉ reservedClasses ∧
      Grant.isNumbered word = false ∧ word.getLast? ≠ some 't' := by decide
  obtain ⟨hr, hn, hl⟩ := hall word h
  have hresult (identifier : Text) : Name.resultClass identifier ≠ word := by
    rintro rfl
    exact hl (Name.getLast?_resultClass identifier)
  rw [← exists_requestsClass_iff hresult, ← mem_granted_classGrants_iff hr hn]
  constructor
  · intro hm
    have hs := classes_sublist s plans
    rw [List.map_map] at hs
    exact hs.subset hm
  · intro hm
    apply mem_classNamesInUse_of_granted hm
    intro hm
    rcases getLast?_resultClasses hm with ht | ht
    · exact hl ht
    · rw [hn] at ht
      cases ht

end Assembled

/--
Class names hold letters, digits and underscores, are not empty and begin with no digit. They are
legal but for `False`, `None` and `True`, and such a class is there exactly if an enum spells the
word, or a table or composite type does with its last word in the singular.
-/
theorem build_classes_legal_iff {s : Schema} {strict : Bool} {b : Binding}
    (h : build s strict = .ok b) :
    (∀ className ∈ b.classNamesInUse, Name.IsProper className ∧
      Name.startsWithDigit className = false ∧
      (Name.IsLegal className ↔ className ∉ Name.capitalKeywords)) ∧
    ∀ word ∈ Name.capitalKeywords, word ∈ b.classNamesInUse ↔
      (∃ e ∈ s.catalog.enums.entries, Name.Spells (Name.bare e.name) word) ∨
        ∃ sqlName ∈ b.declaredNames, Name.Spells (Name.lastSingular (Name.bare sqlName)) word := by
  obtain ⟨plans, -, rfl⟩ := exists_plans h
  constructor
  · intro className hc
    have hp := (namesProper_assemble s plans).classes className hc
    have hd := startsWithDigit_classNamesInUse hc
    obtain ⟨name, rest, -, rfl⟩ := exists_className_of_mem hc
    refine ⟨hp, hd, ?_, ?_⟩
    · intro hl hm
      have hk := (Name.isKeyword_append_className name rest).mpr hm
      rw [hl.unreserved] at hk
      cases hk
    · intro hn
      refine ⟨hp, hd, Bool.eq_false_iff.mpr ?_⟩
      exact mt (Name.isKeyword_append_className name rest).mp hn
  · intro word hw
    rw [mem_classNamesInUse_iff hw]
    simp only [Name.recordClass_eq, Name.enumClass, Name.className_eq_iff hw]

/-- Two enums and a composite type that are called by reserved words, and one that is not. -/
def wordsSchema : Schema where
  catalog := (Catalog.declareAll {} [.enum ⟨"a.none", ["x"].map String.toList⟩,
    .enum ⟨"b.NONE", ["y"].map String.toList⟩, .composite ⟨"_trues", []⟩ [],
    .composite ⟨"order_nones", []⟩ []]).1

theorem build_classes_legal_iff_of_words : ∃ b, build wordsSchema true = .ok b ∧
    b.classNamesInUse = ["None", "None2", "True", "OrderNone"].map String.toList ∧
    ¬ Name.IsLegal "None" ∧ Name.IsLegal "None2" ∧ ¬ Name.IsLegal "True" ∧
    Name.IsLegal "OrderNone" ∧
    ∀ e ∈ wordsSchema.catalog.enums.entries, ¬ Name.Spells (Name.bare e.name) "False" := by
  have h : ((build wordsSchema true).toOption.map classNamesInUse) =
      some (["None", "None2", "True", "OrderNone"].map String.toList) := by
    decide +kernel
  obtain ⟨b, hb, h⟩ := Option.map_eq_some_iff.mp h
  have hb := eq_ok_of_toOption hb
  obtain ⟨hl, hw⟩ := build_classes_legal_iff hb
  rw [h] at hl hw
  refine ⟨b, hb, h, ?_⟩
  have hlegal (name : Text) (hm : name ∈ ["None", "None2", "True", "OrderNone"].map String.toList) :
      Name.IsLegal name ↔ name ∉ Name.capitalKeywords := (hl name hm).2.2
  rw [hlegal "None" (by decide), hlegal "None2" (by decide), hlegal "True" (by decide),
    hlegal "OrderNone" (by decide)]
  refine ⟨by decide, by decide, by decide, by decide, ?_⟩
  intro e he hs
  have hm := (hw "False" (by decide)).mpr (.inl ⟨e, he, hs⟩)
  revert hm
  decide

def noneSource : Text :=
  "CREATE TYPE \"none\" AS ENUM ('x')"

def noneSchema : Schema where
  catalog := { enums := ⟨[⟨"none", ["x"].map String.toList⟩], [("none", 0)]⟩ }

def noneBinding : Binding where
  enums := [⟨"none", "None", [⟨"X", "x"⟩]⟩]

/-- The class of an enum is called by a reserved word. -/
theorem enum_class_reserved : Schema.parse noneSource none = .ok noneSchema ∧
    build noneSchema true = .ok noneBinding ∧
    noneBinding.classNamesInUse = ["None".toList] ∧ Name.isKeyword "None" = true ∧
    ¬ Name.IsLegal "None" := by
  refine ⟨?_, ?_, rfl, ?_, ?_⟩
  · decide +kernel
  · decide +kernel
  · decide
  · decide

end Bindery.Binding
