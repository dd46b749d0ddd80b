import Bindery.Proofs.Binding.Collisions

namespace Bindery

/-- What is reported when names are given and types are resolved. -/
inductive Diagnostic.OfNaming : Diagnostic → Prop
  | collision {wanted given subject : Text} : OfNaming (.nameCollision wanted given subject)
  | unknown {sqlType context : Text} : OfNaming (.unknownType sqlType context)

/-- What is reported until a binding is built. -/
inductive Diagnostic.OfBuilding : Diagnostic → Prop
  | reading {d : Diagnostic} (h : d.OfReading) : OfBuilding d
  | naming {d : Diagnostic} (h : d.OfNaming) : OfBuilding d
  | missing {typeName function : Text} {fallback : Fallback} :
    OfBuilding (.missingSchema typeName function fallback)

def OnlyNaming (notices : List Diagnostic) : Prop :=
  ∀ d ∈ notices, d.OfNaming

theorem onlyNaming_append {front back : List Diagnostic} :
    OnlyNaming (front ++ back) ↔ OnlyNaming front ∧ OnlyNaming back :=
  List.forall_mem_append

theorem onlyNaming_flatMap {α : Type} {xs : List α} {notices : α → List Diagnostic}
    (h : ∀ x ∈ xs, OnlyNaming (notices x)) : OnlyNaming (xs.flatMap notices) := by
  intro d hd
  obtain ⟨x, hx, hd⟩ := List.mem_flatMap.mp hd
  exact h x hx d hd

theorem onlyNaming_type (subject : Text) (t : ValueType) : OnlyNaming (t.notices subject) := by
  intro d hd
  unfold ValueType.notices at hd
  split at hd
  · cases List.mem_singleton.mp hd
    exact .unknown
  · cases hd

def OnlyCollisions (notices : List Diagnostic) : Prop :=
  ∀ d ∈ notices, d.isCollision = true

theorem OnlyCollisions.onlyNaming {notices : List Diagnostic} (h : OnlyCollisions notices) :
    OnlyNaming notices := by
  intro d hd
  have hc := h d hd
  cases d with
  | nameCollision => exact .collision
  | _ => cases hc

namespace Grant

variable (separator : Text) (taken : List Text)

theorem onlyCollisions_answer (r : Request) :
    OnlyCollisions (answer separator taken r).collision.toList := by
  intro d hd
  rw [collision_answer, Option.mem_toList] at hd
  exact Naming.isCollision_of_collision? hd

theorem onlyCollisions_answerEach (requests : List (Option Request)) :
    ∀ grant ∈ (answerEach separator taken requests).filterMap id,
      OnlyCollisions grant.collision.toList := by
  induction requests generalizing taken with
  | nil => simp [answerEach]
  | cons request rest ih =>
    cases request with
    | none => exact ih taken
    | some r =>
      intro grant hg
      rcases List.mem_cons.mp hg with rfl | hg
      · exact onlyCollisions_answer separator taken r
      · exact ih _ grant hg

theorem onlyCollisions_answerAll (requests : List Request) :
    ∀ grant ∈ answerAll separator taken requests, OnlyCollisions grant.collision.toList := by
  have h := onlyCollisions_answerEach separator taken (requests.map some)
  rw [← map_some_answerAll, List.filterMap_map] at h
  simpa using h

theorem onlyCollisions_notices {grants : List Grant}
    (h : ∀ g ∈ grants, OnlyCollisions g.collision.toList) :
    OnlyCollisions (notices grants) := by
  intro d hd
  obtain ⟨g, hg, hc⟩ := List.mem_filterMap.mp hd
  exact h g hg d (by simp [hc])

end Grant

namespace Binding

section Parts

variable (names : ClassNames) (catalog : Catalog)

theorem onlyCollisions_enumClass (e : EnumType) (ref : EnumRef) :
    OnlyCollisions (enumClass e ref).notices :=
  Grant.onlyCollisions_notices (Grant.onlyCollisions_answerAll _ _ _)

theorem onlyNaming_fields (owner : Text) (columns : List Column) :
    OnlyNaming (fields names catalog owner columns).notices := by
  simp only [fields, Noted.all, List.flatMap_map]
  apply onlyNaming_flatMap
  rintro ⟨c, grant⟩ hm
  exact onlyNaming_append.mpr
    ⟨(Grant.onlyCollisions_answerAll _ _ _ grant (List.of_mem_zip hm).2).onlyNaming,
      onlyNaming_type _ _⟩

theorem onlyNaming_arguments (f : Signature) :
    OnlyNaming (arguments names catalog f).notices := by
  simp only [arguments, Noted.all, List.flatMap_map]
  apply onlyNaming_flatMap
  rintro ⟨p, grant⟩ hm
  exact onlyNaming_append.mpr
    ⟨(Grant.onlyCollisions_answerAll _ _ _ grant (List.of_mem_zip hm).2).onlyNaming,
      onlyNaming_type _ _⟩

theorem onlyNaming_result (f : Signature) (resultClass : Option Text) (plan : Plan) :
    OnlyNaming (result names catalog f resultClass plan).notices := by
  cases plan with
  | value raw => exact onlyNaming_type _ _
  | explicit columns =>
    cases resultClass with
    | none => simp [result, OnlyNaming]
    | some className => exact onlyNaming_fields names catalog _ columns
  | _ => simp [result, OnlyNaming]

theorem onlyNaming_wrapper (f : Signature) (identifier : Text) (plan : Plan)
    (resultClass : Option Text) :
    OnlyNaming (wrapper names catalog f identifier plan resultClass).notices :=
  onlyNaming_append.mpr
    ⟨onlyNaming_arguments names catalog f, onlyNaming_result names catalog f resultClass plan⟩

theorem onlyNaming_tableClasses :
    OnlyNaming ((tableClasses names catalog).flatMap Noted.notices) := by
  apply onlyNaming_flatMap
  intro r hr
  obtain ⟨⟨t, name⟩, _, hr⟩ := List.mem_filterMap.mp hr
  obtain ⟨className, _, rfl⟩ := Option.map_eq_some_iff.mp hr
  exact onlyNaming_fields names catalog _ t.columns

theorem onlyNaming_compositeClasses :
    OnlyNaming ((compositeClasses names catalog).flatMap Noted.notices) := by
  apply onlyNaming_flatMap
  intro r hr
  obtain ⟨⟨c, className⟩, _, rfl⟩ := List.mem_map.mp hr
  exact onlyNaming_fields names catalog _ c.fields

end Parts

/-- The notices of a binding: those about the schema and the plans, and others about naming. -/
theorem diagnostics_assemble (s : Schema) (plans : List (Plan × List Diagnostic)) :
    ∃ functions others, OnlyNaming functions ∧ OnlyNaming others ∧
      (assemble s plans).diagnostics =
        s.diagnostics ++ functions ++ plans.flatMap Prod.snd ++ others := by
  have hf : OnlyNaming (Grant.notices (functionGrants s.functions)) :=
    (Grant.onlyCollisions_notices (Grant.onlyCollisions_answerAll _ _ _)).onlyNaming
  have hc : OnlyNaming (Grant.notices ((grantsFor s (plans.map Prod.fst)).filterMap id)) :=
    (Grant.onlyCollisions_notices (Grant.onlyCollisions_answerEach _ _ _)).onlyNaming
  have he : OnlyNaming
      ((s.catalog.enums.entries.zip (namesFor s (plans.map Prod.fst)).enums).flatMap
        fun x => (enumClass x.1 x.2).notices) :=
    onlyNaming_flatMap fun x _ => (onlyCollisions_enumClass x.1 x.2).onlyNaming
  have hw : OnlyNaming ((placed s (plans.map Prod.fst)).flatMap
      fun z => (wrapperAt s (plans.map Prod.fst) z).notices) :=
    onlyNaming_flatMap fun z _ => onlyNaming_wrapper _ _ _ _ _ _
  have ht := onlyNaming_tableClasses (namesFor s (plans.map Prod.fst)) s.catalog
  have hm := onlyNaming_compositeClasses (namesFor s (plans.map Prod.fst)) s.catalog
  have hothers := onlyNaming_append.mpr ⟨hc, onlyNaming_append.mpr ⟨he,
    onlyNaming_append.mpr ⟨ht, onlyNaming_append.mpr ⟨hm, hw⟩⟩⟩⟩
  refine ⟨_, _, hf, hothers, ?_⟩
  rw [assemble_diagnostics]
  simp only [List.append_assoc]

end Binding

theorem Binding.ofBuilding_of_build {functions : Text} {shared : Option Text} {s : Schema}
    {strict : Bool} {b : Binding} (hs : Schema.parse functions shared = .ok s)
    (hb : build s strict = .ok b) : ∀ d ∈ b.diagnostics, d.OfBuilding := by
  intro d hd
  obtain ⟨plans, hp, rfl⟩ := exists_plans hb
  obtain ⟨named, others, hn, ho, he⟩ := diagnostics_assemble s plans
  rw [he, List.mem_append, List.mem_append, List.mem_append] at hd
  rcases hd with ((hd | hd) | hd) | hd
  · exact .reading (Schema.ofReading_of_parse hs d hd)
  · exact .naming (hn d hd)
  · obtain ⟨typeName, function, fallback, rfl⟩ := missing_of_plans hp d hd
    exact .missing
  · exact .naming (ho d hd)

end Bindery
