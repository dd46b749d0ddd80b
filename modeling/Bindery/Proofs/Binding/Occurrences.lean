import Bindery.Proofs.Basic.Lists
import Bindery.Proofs.Binding.Notices
import Bindery.Proofs.Binding.ReachedTables
import Mathlib.Data.List.Perm.Basic

namespace Bindery

def Diagnostic.isUnknownType : Diagnostic → Bool
  | .unknownType _ _ => true
  | _ => false

/-- A place where a type stands: the type as written, what notices call the place, and the type that
it was resolved to. -/
structure Occurrence where
  raw : Text
  context : Text
  type : ValueType
  deriving DecidableEq, Repr

namespace Occurrence

/-- Whether nothing but its text is known of the type inside all array dimensions. -/
def isOpaque (o : Occurrence) : Bool :=
  o.type.element.isUnknown

def notice (o : Occurrence) : Diagnostic :=
  .unknownType o.raw o.context

end Occurrence

def ReturnKind.value? : ReturnKind → Option Text
  | .scalar raw | .enum raw => some raw
  | _ => none

def Plan.value? : Plan → Option Text
  | .value raw => some raw
  | _ => none

theorem Plan.mem_types_of_value? {plan : Plan} {raw : Text} (h : plan.value? = some raw) :
    raw ∈ plan.types := by
  cases plan with
  | value => exact List.mem_singleton.mpr (Option.some.inj h).symm
  | _ => cases h

theorem Plan.value?_of_ofSignature {c : Catalog} {strict : Bool} {f : Signature} {plan : Plan}
    {notices : List Diagnostic} (h : ofSignature c strict f = .ok (plan, notices)) :
    ∀ raw, plan.value? = some raw → f.returns.kind.value? = some raw := by
  intro raw hv
  cases plan with
  | value planned =>
    cases hk : f.returns.kind with
    | tableRows written =>
      rcases Binding.ofSignature_tableRows hk h with ⟨_, he⟩ | ⟨_, _, he | ⟨columns, he⟩⟩
      all_goals cases he
    | _ =>
      simp only [ofSignature, hk] at h
      cases h <;> exact hv
  | _ => cases hv

def ResultShape.value? : ResultShape → Option ValueType
  | .value type => some type
  | _ => none

/-- The types of the fields of a record class, which notices call columns of its owner. -/
def RecordClass.occurrences (r : RecordClass) (owner : Text) : List Occurrence :=
  r.fields.map fun f => ⟨f.sqlType, "column " ++ f.name ++ " of " ++ owner, f.type⟩

theorem RecordClass.types_occurrences (r : RecordClass) (owner : Text) :
    (r.occurrences owner).map Occurrence.type = r.fields.map Field.type :=
  List.map_map ..

namespace Wrapper

/-- The types of the parameters; one without a name is numbered. -/
def parameterOccurrences (w : Wrapper) : List Occurrence :=
  w.params.zipIdx.map fun (a, i) =>
    ⟨a.sqlType, "parameter " ++ a.sqlName.getD ("$" ++ Text.ofNat (i + 1)) ++ " of function " ++
      w.name, a.type⟩

def valueOccurrence? (w : Wrapper) : Option Occurrence :=
  w.result.value?.bind fun type => w.returns.kind.value?.map fun raw =>
    ⟨raw, "return type of function " ++ w.name, type⟩

/-- The types of a wrapper and of the record class of its own that it has. -/
def occurrences (w : Wrapper) (own : Option RecordClass) : List Occurrence :=
  w.parameterOccurrences ++ (w.valueOccurrence?.toList ++
    own.toList.flatMap fun r => r.occurrences ("result of function " ++ w.name))

theorem types_parameterOccurrences (w : Wrapper) :
    w.parameterOccurrences.map Occurrence.type = w.params.map Argument.type := by
  have hf := congrArg (List.map Argument.type) (List.zipIdx_map_fst 0 w.params)
  rw [List.map_map] at hf
  rw [parameterOccurrences, List.map_map, ← hf]
  rfl

end Wrapper

namespace Binding

/-- The types of the fields of declared records, and then those of each wrapper. -/
def occurrences (b : Binding) : List Occurrence :=
  b.records.flatMap (fun r => r.declaredAs?.toList.flatMap r.occurrences) ++
    b.wrappers.flatMap fun w => w.occurrences (b.ownRecord? w)

def valueTypes (b : Binding) : List ValueType :=
  b.records.flatMap (fun r => r.fields.map Field.type) ++
    b.wrappers.flatMap fun w => w.params.map Argument.type ++ w.result.value?.toList

end Binding

/-- The unknown types among notices are the opaque ones of the occurrences, in the same order. -/
def Reports (notices : List Diagnostic) (occurrences : List Occurrence) : Prop :=
  notices.filter Diagnostic.isUnknownType =
    (occurrences.filter Occurrence.isOpaque).map Occurrence.notice

namespace Reports

theorem append {front back : List Diagnostic} {os others : List Occurrence} (h : Reports front os)
    (hb : Reports back others) : Reports (front ++ back) (os ++ others) := by
  rw [Reports, List.filter_append, List.filter_append, List.map_append, h, hb]

theorem flatMap {α : Type} {xs : List α} {notices : α → List Diagnostic}
    {os : α → List Occurrence} (h : ∀ x ∈ xs, Reports (notices x) (os x)) :
    Reports (xs.flatMap notices) (xs.flatMap os) := by
  rw [Reports, List.filter_flatMap, List.filter_flatMap, List.map_flatMap]
  exact List.flatMap_congr h

theorem map {α : Type} {xs : List α} {notices : α → List Diagnostic} {o : α → Occurrence}
    (h : ∀ x ∈ xs, Reports (notices x) [o x]) : Reports (xs.flatMap notices) (xs.map o) := by
  rw [List.map_eq_flatMap]
  exact flatMap h

theorem of_none {notices : List Diagnostic} (h : ∀ d ∈ notices, d.isUnknownType = false) :
    Reports notices [] := by
  apply List.filter_eq_nil_iff.mpr
  intro d hd
  simp [h d hd]

theorem of_collisions {notices : List Diagnostic} (h : OnlyCollisions notices) :
    Reports notices [] := by
  apply of_none
  intro d hd
  have hc := h d hd
  cases d with
  | unknownType => cases hc
  | _ => rfl

theorem of_unknown {t : ValueType} {raw : Text} (h : t.element = .unknown raw) (context : Text) :
    Reports (t.notices context) [⟨raw, context, t⟩] := by
  have hn : t.notices context = [.unknownType raw context] := by
    rw [ValueType.notices, h]
  have ho : (⟨raw, context, t⟩ : Occurrence).isOpaque = true := by
    rw [Occurrence.isOpaque, h]
    rfl
  rw [Reports, hn, List.filter_cons_of_pos ho]
  rfl

theorem of_known {t : ValueType} (h : t.element.isUnknown = false) (raw context : Text) :
    Reports (t.notices context) [⟨raw, context, t⟩] := by
  have hn : t.notices context = [] := by
    unfold ValueType.notices
    split
    · rename_i hu
      rw [hu] at h
      cases h
    · rfl
  have ho : ¬ (⟨raw, context, t⟩ : Occurrence).isOpaque = true := by
    rw [Occurrence.isOpaque, h]
    exact Bool.false_ne_true
  rw [Reports, hn, List.filter_cons_of_neg ho]
  rfl

end Reports

theorem ClassNames.Names.isUnknown {names : ClassNames} {t : ValueType} (h : names.Names t) :
    t.isUnknown = false := by
  cases h <;> rfl

theorem ClassNames.reports_resolve (names : ClassNames) (catalog : Catalog) (raw context : Text) :
    Reports ((names.resolve catalog raw).notices context)
      [⟨raw, context, names.resolve catalog raw⟩] := by
  rcases names.resolve_cases catalog raw with hn | ⟨hu, _⟩
  · exact .of_known hn.isUnknown raw context
  · exact .of_unknown hu context

namespace Binding

section Parts

variable (names : ClassNames) (catalog : Catalog)

def columnOccurrence (owner : Text) (c : Column) : Occurrence :=
  ⟨c.sqlType, columnSubject owner c, names.resolve catalog c.sqlType⟩

def valueOccurrence (f : Signature) (raw : Text) : Occurrence :=
  ⟨raw, "return type of function " ++ f.name, names.resolve catalog raw⟩

def inputOccurrence (f : Signature) (input : Parameter × Nat) : Occurrence :=
  ⟨input.1.sqlType, parameterSubject f input.1 input.2, names.resolve catalog input.1.sqlType⟩

theorem occurrences_recordClass (owner sqlName : Text) (origin : RecordOrigin)
    (columns : List Column) (className : Text) :
    (recordClass names catalog owner sqlName origin columns className).value.occurrences owner =
      columns.map (columnOccurrence names catalog owner) := by
  simp only [recordClass, fields, Noted.all, RecordClass.occurrences, List.map_map]
  exact map_fst_of_zip (by simp [Grant.length_answerAll]) (columnOccurrence names catalog owner)

theorem reports_recordClass (owner sqlName : Text) (origin : RecordOrigin)
    (columns : List Column) (className : Text) :
    Reports (recordClass names catalog owner sqlName origin columns className).notices
      ((recordClass names catalog owner sqlName origin columns className).value.occurrences
        owner) := by
  simp only [recordClass, fields, Noted.all, RecordClass.occurrences, List.map_map,
    List.flatMap_map]
  apply Reports.map
  rintro ⟨c, grant⟩ hm
  have hg := Grant.onlyCollisions_answerAll _ _ _ grant (List.of_mem_zip hm).2
  exact (Reports.of_collisions hg).append (names.reports_resolve catalog c.sqlType _)

variable (f : Signature) (identifier : Text) (plan : Plan) (resultClass : Option Text)

theorem parameterOccurrences_wrapper :
    (wrapper names catalog f identifier plan resultClass).value.1.parameterOccurrences =
      f.inputs.zipIdx.map (inputOccurrence names catalog f) := by
  simp only [wrapper, arguments, Noted.all, Wrapper.parameterOccurrences, List.map_map]
  rw [zipIdx_map_zip, List.map_map]
  exact map_fst_of_zip (by simp [Grant.length_answerAll]) (inputOccurrence names catalog f)

theorem reports_arguments : Reports (arguments names catalog f).notices
    (wrapper names catalog f identifier plan resultClass).value.1.parameterOccurrences := by
  simp only [wrapper, arguments, Noted.all, Wrapper.parameterOccurrences, List.map_map,
    List.flatMap_map]
  rw [zipIdx_map_zip, List.map_map]
  apply Reports.map
  rintro ⟨⟨p, i⟩, grant⟩ hm
  have hg := Grant.onlyCollisions_answerAll _ _ _ grant (List.of_mem_zip hm).2
  exact (Reports.of_collisions hg).append (names.reports_resolve catalog p.sqlType _)

theorem value?_wrapper :
    (wrapper names catalog f identifier plan resultClass).value.1.result.value? =
      plan.value?.map (names.resolve catalog) := by
  cases plan with
  | record raw =>
    simp only [wrapper, result]
    cases names.recordClass? catalog raw <;> rfl
  | explicit columns => cases resultClass <;> rfl
  | _ => rfl

variable (hk : ∀ raw, plan.value? = some raw → f.returns.kind.value? = some raw)

include hk

theorem valueOccurrence?_wrapper :
    (wrapper names catalog f identifier plan resultClass).value.1.valueOccurrence? =
      plan.value?.map (valueOccurrence names catalog f) := by
  rw [Wrapper.valueOccurrence?, value?_wrapper]
  cases hv : plan.value? with
  | none => rfl
  | some raw => exact congrArg (Option.map _) (hk raw hv)

theorem reports_result :
    Reports (result names catalog f resultClass plan).notices
      ((wrapper names catalog f identifier plan resultClass).value.1.valueOccurrence?.toList ++
        (wrapper names catalog f identifier plan resultClass).value.2.toList.flatMap
          fun r => r.occurrences ("result of function " ++ f.name)) := by
  rw [valueOccurrence?_wrapper names catalog f identifier plan resultClass hk]
  cases plan with
  | value raw => exact names.reports_resolve catalog raw _
  | explicit columns =>
    cases resultClass with
    | none => rfl
    | some className =>
      change Reports _ ([] ++ List.flatMap _ [_])
      rw [List.nil_append, List.flatMap_singleton]
      exact reports_recordClass names catalog _ f.callName .result columns className
  | _ => rfl

theorem reports_wrapper :
    Reports (wrapper names catalog f identifier plan resultClass).notices
      ((wrapper names catalog f identifier plan resultClass).value.1.occurrences
        (wrapper names catalog f identifier plan resultClass).value.2) :=
  (reports_arguments names catalog f identifier plan resultClass).append
    (reports_result names catalog f identifier plan resultClass hk)

theorem types_wrapper :
    ((wrapper names catalog f identifier plan resultClass).value.1.occurrences
        (wrapper names catalog f identifier plan resultClass).value.2).map Occurrence.type =
      (wrapper names catalog f identifier plan resultClass).value.1.params.map Argument.type ++
        (wrapper names catalog f identifier plan resultClass).value.1.result.value?.toList ++
        (wrapper names catalog f identifier plan resultClass).value.2.toList.flatMap
          fun r => r.fields.map Field.type := by
  have hv : (plan.value?.map (valueOccurrence names catalog f)).toList.map Occurrence.type =
      (plan.value?.map (names.resolve catalog)).toList := by
    cases plan.value? <;> rfl
  rw [Wrapper.occurrences, List.map_append, List.map_append, Wrapper.types_parameterOccurrences,
    valueOccurrence?_wrapper names catalog f identifier plan resultClass hk, hv, value?_wrapper,
    List.append_assoc, List.map_flatMap]
  simp only [RecordClass.types_occurrences]

end Parts

/-- The type was resolved from the type as written, whose table is reachable. -/
def Settles (s : Schema) (plans : List Plan) (o : Occurrence) : Prop :=
  s.Covers plans o.raw ∧ o.type = (namesFor s plans).resolve s.catalog o.raw

section Settled

variable {s : Schema} {plans : List Plan}

theorem Settles.isOpaque_iff {o : Occurrence} (h : Settles s plans o)
    (hc : s.catalog.Consistent) :
    o.isOpaque = true ↔ (s.catalog.lookup o.raw).target = none := by
  obtain ⟨hcovers, ht⟩ := h
  rw [Occurrence.isOpaque, ht]
  cases hl : (s.catalog.lookup o.raw).target with
  | none =>
    rw [ClassNames.resolve, ValueType.element_arrayOf, hl]
    exact iff_of_true rfl rfl
  | some target =>
    rcases (namesFor s plans).resolve_cases s.catalog o.raw with hn | ⟨_, hnone⟩
    · rw [hn.isUnknown]
      exact iff_of_false Bool.false_ne_true (Option.some_ne_none target)
    · obtain ⟨t, ht⟩ := exists_typeOf? hcovers hl (hc.has_of_lookup hl)
      rw [hnone target hl] at ht
      cases ht

/-- The notices report the opaque ones of some occurrences, all of which are settled. -/
def Accounts (s : Schema) (plans : List Plan) (notices : List Diagnostic)
    (occurrences : List Occurrence) : Prop :=
  Reports notices occurrences ∧ ∀ o ∈ occurrences, Settles s plans o

theorem Accounts.append {front back : List Diagnostic} {os others : List Occurrence}
    (h : Accounts s plans front os) (hb : Accounts s plans back others) :
    Accounts s plans (front ++ back) (os ++ others) :=
  ⟨h.1.append hb.1, List.forall_mem_append.mpr ⟨h.2, hb.2⟩⟩

theorem Accounts.flatMap {α : Type} {xs : List α} {notices : α → List Diagnostic}
    {os : α → List Occurrence} (h : ∀ x ∈ xs, Accounts s plans (notices x) (os x)) :
    Accounts s plans (xs.flatMap notices) (xs.flatMap os) := by
  refine ⟨.flatMap fun x hx => (h x hx).1, ?_⟩
  intro o ho
  obtain ⟨x, hx, ho⟩ := List.mem_flatMap.mp ho
  exact (h x hx).2 o ho

theorem accounts_recordClass {columns : List Column}
    (h : ∀ c ∈ columns, s.Covers plans c.sqlType) (owner sqlName : Text) (origin : RecordOrigin)
    (className : Text) :
    Accounts s plans
      (recordClass (namesFor s plans) s.catalog owner sqlName origin columns className).notices
      ((recordClass (namesFor s plans) s.catalog owner sqlName origin columns
        className).value.occurrences owner) := by
  refine ⟨reports_recordClass .., ?_⟩
  intro o ho
  rw [occurrences_recordClass] at ho
  obtain ⟨c, hc, rfl⟩ := List.mem_map.mp ho
  exact ⟨h c hc, rfl⟩

theorem accounts_tableClasses :
    Accounts s plans ((tableClasses (namesFor s plans) s.catalog).flatMap Noted.notices)
      (((tableClasses (namesFor s plans) s.catalog).map Noted.value).flatMap
        fun r => r.declaredAs?.toList.flatMap r.occurrences) := by
  rw [List.flatMap_map]
  apply Accounts.flatMap
  intro r hr
  obtain ⟨⟨t, name⟩, hm, hr⟩ := List.mem_filterMap.mp hr
  obtain ⟨className, rfl, rfl⟩ := Option.map_eq_some_iff.mp hr
  change Accounts s plans _ (List.flatMap _ [_])
  rw [List.flatMap_singleton]
  exact accounts_recordClass (covers_of_class hm) _ _ _ _

theorem accounts_compositeClasses :
    Accounts s plans ((compositeClasses (namesFor s plans) s.catalog).flatMap Noted.notices)
      (((compositeClasses (namesFor s plans) s.catalog).map Noted.value).flatMap
        fun r => r.declaredAs?.toList.flatMap r.occurrences) := by
  rw [List.flatMap_map]
  apply Accounts.flatMap
  intro r hr
  obtain ⟨⟨c, className⟩, hm, rfl⟩ := List.mem_map.mp hr
  change Accounts s plans _ (List.flatMap _ [_])
  rw [List.flatMap_singleton]
  apply accounts_recordClass
  intro column hc
  exact Schema.covers_composite (List.of_mem_zip hm).1 hc

theorem accounts_wrapper {f : Signature} {plan : Plan} (hf : (f, plan) ∈ s.functions.zip plans)
    (hk : ∀ raw, plan.value? = some raw → f.returns.kind.value? = some raw)
    (identifier : Text) (resultClass : Option Text) :
    Accounts s plans
      (wrapper (namesFor s plans) s.catalog f identifier plan resultClass).notices
      ((wrapper (namesFor s plans) s.catalog f identifier plan resultClass).value.1.occurrences
        (wrapper (namesFor s plans) s.catalog f identifier plan resultClass).value.2) := by
  refine ⟨reports_wrapper _ _ _ _ _ _ hk, ?_⟩
  intro o ho
  rw [Wrapper.occurrences, List.mem_append, List.mem_append] at ho
  rcases ho with ho | ho | ho
  · rw [parameterOccurrences_wrapper] at ho
    obtain ⟨⟨p, i⟩, hp, rfl⟩ := List.mem_map.mp ho
    exact ⟨Schema.covers_input hf (List.fst_mem_of_mem_zipIdx hp), rfl⟩
  · rw [valueOccurrence?_wrapper _ _ _ _ _ _ hk, Option.mem_toList, Option.map_eq_some_iff] at ho
    obtain ⟨raw, hv, rfl⟩ := ho
    exact ⟨Schema.covers_result hf (Plan.mem_types_of_value? hv), rfl⟩
  · obtain ⟨r, hr, ho⟩ := List.mem_flatMap.mp ho
    obtain ⟨columns, className, rfl, _, rfl⟩ := result_record (Option.mem_toList.mp hr)
    have hc : ∀ c ∈ columns, s.Covers plans c.sqlType := fun c hc =>
      Schema.covers_result hf (List.mem_map_of_mem hc)
    exact (accounts_recordClass hc _ _ _ _).2 o ho

end Settled

section Assembled

variable {s : Schema} {strict : Bool} {plans : List (Plan × List Diagnostic)}

theorem occurrences_assemble : (assemble s plans).occurrences =
    ((tableClasses (namesFor s (plans.map Prod.fst)) s.catalog).map Noted.value).flatMap
        (fun r => r.declaredAs?.toList.flatMap r.occurrences) ++
      ((compositeClasses (namesFor s (plans.map Prod.fst)) s.catalog).map Noted.value).flatMap
        (fun r => r.declaredAs?.toList.flatMap r.occurrences) ++
      (placed s (plans.map Prod.fst)).flatMap fun z =>
        (wrapperAt s (plans.map Prod.fst) z).value.1.occurrences
          (wrapperAt s (plans.map Prod.fst) z).value.2 := by
  rw [occurrences, records_declared RecordClass.occurrences, assemble_wrappers, wrapped_eq,
    List.map_map]
  congr 1
  rw [List.flatMap_map]
  apply List.flatMap_congr
  intro z hz
  exact congrArg (Wrapper.occurrences _) (ownRecord?_of_mem hz)

variable (hp : s.functions.map (Plan.ofSignature s.catalog strict) = plans.map .ok)

include hp

theorem planned_of_mem_placed {z : ((Signature × Text) × Plan) × Option Text}
    (hz : z ∈ placed s (plans.map Prod.fst)) :
    (z.1.1.1, z.1.2) ∈ s.functions.zip (plans.map Prod.fst) := by
  have hl := length_plans hp
  obtain ⟨hf, _, hplans⟩ := map_placed hl
  have hzip : s.functions.zip (plans.map Prod.fst) =
      (placed s (plans.map Prod.fst)).map fun z => (z.1.1.1, z.1.2) := by
    rw [← List.zip_map', hf, hplans]
  rw [hzip]
  exact List.mem_map_of_mem hz

theorem value?_of_mem_placed {z : ((Signature × Text) × Plan) × Option Text}
    (hz : z ∈ placed s (plans.map Prod.fst)) :
    ∀ raw, z.1.2.value? = some raw → z.1.1.1.returns.kind.value? = some raw := by
  obtain ⟨_, notices, hok⟩ := (mem_zip_plans_iff hp).mp (planned_of_mem_placed hp hz)
  exact Plan.value?_of_ofSignature hok

theorem accounts_assemble (hs : ∀ d ∈ s.diagnostics, d.OfReading) :
    Accounts s (plans.map Prod.fst) (assemble s plans).diagnostics
      (assemble s plans).occurrences := by
  have hread : Reports s.diagnostics [] := .of_none fun d hd => by
    cases hs d hd <;> rfl
  have hplans : Reports (plans.flatMap Prod.snd) [] := .of_none fun d hd => by
    obtain ⟨typeName, function, fallback, rfl⟩ := missing_of_plans hp d hd
    rfl
  have hf : Reports (Grant.notices (functionGrants s.functions)) [] :=
    .of_collisions (Grant.onlyCollisions_notices (Grant.onlyCollisions_answerAll _ _ _))
  have hc : Reports (Grant.notices ((grantsFor s (plans.map Prod.fst)).filterMap id)) [] :=
    .of_collisions (Grant.onlyCollisions_notices (Grant.onlyCollisions_answerEach _ _ _))
  have he : Reports ((s.catalog.enums.entries.zip (namesFor s (plans.map Prod.fst)).enums).flatMap
      fun x => (enumClass x.1 x.2).notices) [] := by
    apply Reports.of_collisions
    intro d hd
    obtain ⟨x, _, hd⟩ := List.mem_flatMap.mp hd
    exact onlyCollisions_enumClass x.1 x.2 d hd
  have hfront : Accounts s (plans.map Prod.fst) _ [] :=
    ⟨(((hread.append hf).append hplans).append hc).append he, fun _ h => nomatch h⟩
  rw [assemble_diagnostics, occurrences_assemble]
  refine ((hfront.append accounts_tableClasses).append accounts_compositeClasses).append ?_
  apply Accounts.flatMap
  intro z hz
  exact accounts_wrapper (planned_of_mem_placed hp hz) (value?_of_mem_placed hp hz) _ _

theorem types_assemble :
    ((assemble s plans).occurrences.map Occurrence.type).Perm (assemble s plans).valueTypes := by
  have hdeclared {rs : List RecordClass} (h : ∀ r ∈ rs, ∃ owner, r.declaredAs? = some owner) :
      (rs.flatMap fun r => r.declaredAs?.toList.flatMap r.occurrences).map Occurrence.type =
        rs.flatMap fun r => r.fields.map Field.type := by
    rw [List.map_flatMap]
    apply List.flatMap_congr
    intro r hr
    obtain ⟨owner, ho⟩ := h r hr
    rw [ho, Option.toList_some, List.flatMap_singleton, RecordClass.types_occurrences]
  have hwrappers : ((placed s (plans.map Prod.fst)).flatMap fun z =>
      (wrapperAt s (plans.map Prod.fst) z).value.1.occurrences
        (wrapperAt s (plans.map Prod.fst) z).value.2).map Occurrence.type =
      (wrapped s (plans.map Prod.fst)).flatMap fun w =>
        w.1.params.map Argument.type ++ w.1.result.value?.toList ++
          w.2.toList.flatMap fun r => r.fields.map Field.type := by
    rw [List.map_flatMap, wrapped_eq, List.flatMap_map]
    apply List.flatMap_congr
    intro z hz
    exact types_wrapper _ _ _ _ _ _ (value?_of_mem_placed hp hz)
  have hown : ((wrapped s (plans.map Prod.fst)).filterMap Prod.snd).flatMap
      (fun r => r.fields.map Field.type) = (wrapped s (plans.map Prod.fst)).flatMap fun w =>
        w.2.toList.flatMap fun r => r.fields.map Field.type := by
    rw [List.filterMap_eq_flatMap_toList, List.flatMap_assoc]
  have hcalls : ((wrapped s (plans.map Prod.fst)).map Prod.fst).flatMap
      (fun w => w.params.map Argument.type ++ w.result.value?.toList) =
        (wrapped s (plans.map Prod.fst)).flatMap fun w =>
          w.1.params.map Argument.type ++ w.1.result.value?.toList :=
    List.flatMap_map ..
  rw [occurrences_assemble, List.map_append, List.map_append, hwrappers,
    hdeclared fun r hr => declaredAs?_of_mem_tables hr,
    hdeclared fun r hr => declaredAs?_of_mem_composites hr, valueTypes, assemble_records,
    assemble_wrappers, List.flatMap_append, List.flatMap_append, hown, hcalls, ← List.append_assoc,
    List.append_assoc (_ ++ _)]
  apply List.Perm.append_left
  exact (List.flatMap_append_perm _ _ _).symm.trans List.perm_append_comm

end Assembled

/--
Tables have a class exactly if they are reached, in the order of the catalog. A type is opaque
exactly if nothing is found for it as it was written, and what is reported of unknown types is one
notice for each opaque type, in the order in which the types were resolved.
-/
theorem build_emits_reached {functions : Text} {shared : Option Text} {s : Schema} {strict : Bool}
    {b : Binding} (hs : Schema.parse functions shared = .ok s) (hb : build s strict = .ok b) :
    EmitsReached s strict b ∧
    (∀ o ∈ b.occurrences, o.isOpaque = true ↔ (s.catalog.lookup o.raw).target = none) ∧
    b.diagnostics.filter Diagnostic.isUnknownType =
      (b.occurrences.filter Occurrence.isOpaque).map Occurrence.notice ∧
    (b.occurrences.map Occurrence.type).Perm b.valueTypes := by
  obtain ⟨plans, hp, rfl⟩ := exists_plans hb
  have hc := Schema.consistent_of_parse hs
  obtain ⟨hr, hsettled⟩ := accounts_assemble hp (Schema.ofReading_of_parse hs)
  exact ⟨emitsReached_assemble hc hp, fun o ho => (hsettled o ho).isOpaque_iff hc, hr,
    types_assemble hp⟩

/-- Two tables that refer to each other, through a domain and in an array, and one that is apart;
two types are unknown. -/
def ringSource : Text :=
  "CREATE TABLE lone (id int); CREATE TABLE a (id int, to_b b[]); CREATE DOMAIN d AS a;
   CREATE TABLE b (to_a d, odd blob); CREATE FUNCTION f(x d, int) RETURNS gone[]"

def ringSchema : Schema where
  catalog := {
    tables := ⟨[⟨"lone", [⟨"id", "int", true, none⟩]⟩,
      ⟨"a", [⟨"id", "int", true, none⟩, ⟨"to_b", "b[]", true, none⟩]⟩,
      ⟨"b", [⟨"to_a", "d", true, none⟩, ⟨"odd", "blob", true, none⟩]⟩],
      [("lone", 0), ("a", 1), ("b", 2)]⟩
    domains := ⟨[⟨"d", "a"⟩], [("d", 0)]⟩ }
  functions := [⟨"f", "f", none,
    [⟨some "x".toList, .input, "d", none⟩, ⟨none, .input, "int", none⟩],
    ⟨.scalar "gone[]", false⟩, ⟨2, 39⟩⟩]

def ringPlans : List (Plan × List Diagnostic) :=
  [(.value "gone[]", [])]

def ringOccurrences : List Occurrence :=
  [⟨"int", "column id of table a", .scalar .integer⟩,
    ⟨"b[]", "column to_b of table a", .array (.record "B")⟩,
    ⟨"d", "column to_a of table b", .record "A"⟩,
    ⟨"blob", "column odd of table b", .unknown "blob"⟩,
    ⟨"d", "parameter x of function f", .record "A"⟩,
    ⟨"int", "parameter $2 of function f", .scalar .integer⟩,
    ⟨"gone[]", "return type of function f", .array (.unknown "gone[]")⟩]

theorem reachableTables_ring : ringSchema.reachableTables (ringPlans.map Prod.fst) = [1, 2] := by
  have hd : (ringSchema.catalog.lookup "d").target = some (.table 1) := by decide +kernel
  have hb : (ringSchema.catalog.lookup "b[]").target = some (.table 2) := by decide +kernel
  have hi : (ringSchema.catalog.lookup "int").target = some (.scalar .integer) := by
    decide +kernel
  have ho : (ringSchema.catalog.lookup "blob").target = none := by decide +kernel
  have hg : (ringSchema.catalog.lookup "gone[]").target = none := by decide +kernel
  have ha : ringSchema.catalog.columnTypes 1 = [("int" : Text), "b[]"] := rfl
  have hc : ringSchema.catalog.columnTypes 2 = [("d" : Text), "blob"] := rfl
  calc ringSchema.reachableTables (ringPlans.map Prod.fst)
      = ringSchema.catalog.reach [0, 1, 2] [("d" : Text), "int", "gone[]"] := rfl
    _ = 1 :: ringSchema.catalog.reach [0, 2] [("int" : Text), "b[]", "int", "gone[]"] := by
      rw [Catalog.reach]
      simp only [hd]
      rw [dif_pos (by decide), ha]
      rfl
    _ = 1 :: 2 :: ringSchema.catalog.reach [0] [("d" : Text), "blob", "int", "gone[]"] := by
      rw [Catalog.reach, Catalog.reach]
      simp only [hi, hb]
      rw [dif_pos (by decide), hc]
      rfl
    _ = [1, 2] := by
      simp only [Catalog.reach, hd, hi, ho, hg]
      rw [dif_neg (by decide)]

theorem build_emits_reached_of_ring : Schema.parse ringSource none = .ok ringSchema ∧
    ¬ ringSchema.Reaches true 0 ∧ ringSchema.Reaches true 1 ∧ ringSchema.Reaches true 2 ∧
    (ringSchema.catalog.lookup "blob").target = none ∧
    (ringSchema.catalog.lookup "d").target ≠ none ∧
    ∃ b, build ringSchema true = .ok b ∧
      b.diagnostics.filter Diagnostic.isUnknownType =
        [.unknownType "blob" "column odd of table b",
          .unknownType "gone[]" "return type of function f"] ∧
      (ringOccurrences.map Occurrence.type).Perm b.valueTypes := by
  have hs : Schema.parse ringSource none = .ok ringSchema := by
    set_option maxRecDepth 1000 in
    rw [show ringSource = _ from String.toList_ofList]
    decide +kernel
  have hb : build ringSchema true = .ok (assemble ringSchema ringPlans) := by
    have hp : ringSchema.functions.mapM (Plan.ofSignature ringSchema.catalog true) =
        .ok ringPlans := by decide
    rw [build, hp]
    rfl
  have h : ((assemble ringSchema ringPlans).occurrences,
      ((assemble ringSchema ringPlans).records.filter fun r => r.origin == .table).map
        RecordClass.sqlName) = (ringOccurrences, ["a", "b"].map String.toList) := by
    unfold assemble classGrants
    simp only [reachableTables_ring]
    decide +kernel
  obtain ⟨ho, hr⟩ := Prod.mk.inj h
  obtain ⟨he, hunknown, hd, hp⟩ := build_emits_reached hs hb
  rw [ho] at hunknown hd hp
  have hreach {i : Nat} {name : Text}
      (hi : (["lone", "a", "b"].map String.toList)[i]? = some name) :
      ringSchema.Reaches true i ↔ name ∈ ["a", "b"].map String.toList :=
    hr ▸ he.reaches_iff (by decide) hi
  refine ⟨hs, ?_, ?_, ?_, ?_, ?_, _, hb, hd, hp⟩
  · rw [hreach (i := 0) rfl]
    decide
  · rw [hreach (i := 1) rfl]
    decide
  · rw [hreach (i := 2) rfl]
    decide
  · exact (hunknown ⟨"blob", "column odd of table b", .unknown "blob"⟩ (by decide)).mp rfl
  · exact mt (hunknown ⟨"d", "column to_a of table b", .record "A"⟩ (by decide)).mpr
      Bool.false_ne_true

end Binding

end Bindery
