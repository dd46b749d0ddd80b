import Bindery.Proofs.Binding.ProperNames
import Bindery.Proofs.Name.Legal

namespace Bindery.Binding

theorem isLegal_answerAll {taken : List Text} {requests : List Request}
    (h : ∀ r ∈ requests, Name.IsLegal r.wanted ∧
      ∀ name, r.alternative = some name → Name.IsLegal name)
    {name : Text} (hn : name ∈ (Grant.answerAll "_" taken requests).map Grant.name) :
    Name.IsLegal name := by
  obtain ⟨grant, hg, rfl⟩ := List.mem_map.mp hn
  obtain ⟨r, hr, before, rfl⟩ := Grant.mem_answerAll hg
  obtain ⟨hw, ha⟩ := h r hr
  exact Name.isLegal_answer (Name.isPlain_of_all (by decide)) before ha hw

theorem isLegal_wanted {α : Type} {items : List α} {wanted subject : α → Text}
    (h : ∀ x ∈ items, Name.IsLegal (wanted x)) {name : Text}
    (hn : name ∈ (Grant.answerAll "_" []
      (items.map fun x => ⟨wanted x, none, subject x⟩)).map Grant.name) : Name.IsLegal name := by
  apply isLegal_answerAll _ hn
  intro r hr
  obtain ⟨x, hx, rfl⟩ := List.mem_map.mp hr
  refine ⟨h x hx, ?_⟩
  intro name ha
  cases ha

theorem isLegal_functionGrants (functions : List Signature) {identifier : Text}
    (h : identifier ∈ (functionGrants functions).map Grant.name) : Name.IsLegal identifier := by
  apply isLegal_answerAll _ h
  intro r hr
  obtain ⟨f, -, rfl⟩ := List.mem_map.mp hr
  refine ⟨Name.isLegal_function f.name, ?_⟩
  intro name ha
  obtain ⟨⟨schema, last⟩, -, rfl⟩ := Option.map_eq_some_iff.mp ha
  exact Name.isLegal_identifier _ (by decide)

theorem isLegal_wantedParameter (p : Parameter) (index : Nat) :
    Name.IsLegal (wantedParameter p index) := by
  unfold wantedParameter
  split
  · rename_i name _
    have hn := Name.isLegal_parameter name
    dsimp only
    split
    · exact hn.isLegal_append hn.start (Name.isPlain_of_all (by decide)) rfl rfl
    · exact hn
  · have ha : Name.IsLegal "arg".toList := by decide
    exact ha.append_ofNat ha.start (index + 1)

theorem isLegal_arguments {names : ClassNames} {catalog : Catalog} {f : Signature} {a : Argument}
    (h : a ∈ (arguments names catalog f).value) : Name.IsLegal a.identifier := by
  have hi := List.mem_map_of_mem (f := Argument.identifier) h
  rw [identifiers_arguments] at hi
  exact isLegal_wanted (fun x _ => isLegal_wantedParameter x.1 x.2) hi

/-- The identifiers of a binding: those of wrappers and parameters, attributes and members. -/
structure NamesLegal (b : Binding) : Prop where
  functions : ∀ w ∈ b.wrappers, Name.IsLegal w.identifier
  parameters : ∀ w ∈ b.wrappers, ∀ a ∈ w.params, Name.IsLegal a.identifier
  attributes : ∀ r ∈ b.records, ∀ f ∈ r.fields, Name.IsLegal f.identifier
  members : ∀ e ∈ b.enums, ∀ m ∈ e.members, Name.IsLegal m.name

theorem namesLegal_assemble {s : Schema} {plans : List (Plan × List Diagnostic)}
    (hl : (plans.map Prod.fst).length = s.functions.length) : (assemble s plans).NamesLegal where
  functions := by
    intro w hw
    have hi := List.mem_map_of_mem (f := Wrapper.identifier) hw
    rw [identifiers_assemble hl] at hi
    exact isLegal_functionGrants s.functions hi
  parameters := by
    intro w hw a ha
    rw [assemble_wrappers] at hw
    obtain ⟨planned, hm, rfl⟩ := List.mem_map.mp hw
    obtain ⟨f, identifier, plan, resultClass, -, rfl⟩ := exists_planned hm
    exact isLegal_arguments ha
  attributes := by
    intro r hr field hf
    obtain ⟨owner, columns, he⟩ := exists_fields hr
    have hi := List.mem_map_of_mem (f := Field.identifier) hf
    rw [he, identifiers_fields] at hi
    exact isLegal_wanted (fun c _ => Name.isLegal_field c.name) hi
  members := by
    intro e he m hm
    rw [enums_eq] at he
    obtain ⟨⟨type, ref⟩, -, rfl⟩ := List.mem_map.mp he
    have hn := List.mem_map_of_mem (f := EnumMember.name) hm
    rw [names_members] at hn
    exact isLegal_wanted (fun label _ => Name.isLegal_member label) hn

/--
Every identifier of a binding is legal: those of functions, parameters, attributes and enum members
hold letters, digits and underscores, begin with no digit and are no reserved words. No name in the
manifest of a generated module has a point in it.
-/
theorem build_namesLegal {s : Schema} {strict : Bool} {b : Binding} (h : build s strict = .ok b) :
    b.NamesLegal ∧ ∀ options g, b.generate options = .ok g →
      ∃ exported, g.source.blocks.filterMap Block.manifest? = [exported] ∧
        ∀ name ∈ exported, '.' ∉ name := by
  obtain ⟨plans, hp, rfl⟩ := exists_plans h
  have hl := length_plans hp
  have hlegal := namesLegal_assemble hl
  refine ⟨hlegal, ?_⟩
  intro options g hg
  obtain ⟨-, records, -, hblocks⟩ := generate_eq_ok hg
  refine ⟨_, by rw [hblocks]; exact manifests_blocks _ options records, ?_⟩
  intro name hn
  rcases List.mem_append.mp (Text.mem_sortedSet.mp hn) with hn | hn
  · exact ((namesProper_assemble s plans).classes name hn).plain.no_point
  · obtain ⟨w, hw, rfl⟩ := List.mem_map.mp hn
    exact (hlegal.functions w hw).plain.no_point

/-- Digits in front, reserved words, an empty label, a point, and names that are wanted twice. -/
def marksSchema : Schema where
  catalog := (Catalog.declareAll {} [.enum ⟨"e", ["1", "", "if"].map String.toList⟩,
    .composite ⟨"t", ["9", "in", "in_"].map fun name => ⟨name.toList, "int", true, none⟩⟩ []]).1
  functions := [[some "p_if", some "_if", none], [some "p_2."]].map fun names =>
    ⟨"\"2\".if", "2.if", none,
      names.map fun name => ⟨name.map String.toList, .input, "int", none⟩, ⟨.void, false⟩, .start⟩

theorem build_namesLegal_of_marks : ∃ b g, build marksSchema true = .ok b ∧
    b.generate {} = .ok g ∧
    (∀ name ∈ ["if_", "func_2_if_", "if_", "if__2", "arg3", "arg_2_", "field_9", "in_", "in__2",
      "VALUE_1", "EMPTY", "IF"].map String.toList, Name.IsLegal name) ∧
    g.source.blocks.filterMap Block.manifest? =
      [["E", "T", "func_2_if_", "if_"].map String.toList] ∧
    ∀ name ∈ ["E", "T", "func_2_if_", "if_"].map String.toList, '.' ∉ name := by
  have h : ((build marksSchema true).toOption.bind fun b => (b.generate {}).toOption.map fun g =>
      (b.wrappers.map Wrapper.identifier ++
        ((b.wrappers.flatMap fun w => w.params.map Argument.identifier) ++
          ((b.records.flatMap fun r => r.fields.map Field.identifier) ++
            b.enums.flatMap fun e => e.members.map EnumMember.name)),
        g.source.blocks.filterMap Block.manifest?)) =
      some (["if_", "func_2_if_", "if_", "if__2", "arg3", "arg_2_", "field_9", "in_", "in__2",
        "VALUE_1", "EMPTY", "IF"].map String.toList,
        [["E", "T", "func_2_if_", "if_"].map String.toList]) := by
    decide +kernel
  obtain ⟨b, hb, h⟩ := Option.bind_eq_some_iff.mp h
  obtain ⟨g, hg, h⟩ := Option.map_eq_some_iff.mp h
  obtain ⟨hn, hx⟩ := Prod.mk.inj h
  have hb := eq_ok_of_toOption hb
  have hg := eq_ok_of_toOption hg
  obtain ⟨hl, hpoint⟩ := build_namesLegal hb
  obtain ⟨exported, he, hpoint⟩ := hpoint {} g hg
  refine ⟨b, g, hb, hg, ?_, hx, ?_⟩
  · rw [← hn]
    simp only [List.forall_mem_append, List.forall_mem_map, List.forall_mem_flatMap]
    exact ⟨hl.functions, hl.parameters, hl.attributes, hl.members⟩
  · rw [hx] at he
    cases he
    exact hpoint

end Bindery.Binding
