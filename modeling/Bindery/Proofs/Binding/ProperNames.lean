import Bindery.Proofs.Binding.UniqueNames
import Bindery.Proofs.Name.Plain

namespace Bindery.Binding

/-- The names that generated code is made of are proper. -/
structure NamesProper (b : Binding) : Prop where
  functions : ∀ w ∈ b.wrappers, Name.IsProper w.identifier
  classes : ∀ className ∈ b.classNamesInUse, Name.IsProper className
  parameters : ∀ w ∈ b.wrappers, ∀ a ∈ w.params, Name.IsProper a.identifier
  members : ∀ e ∈ b.enums, ∀ m ∈ e.members, Name.IsPlain m.name

theorem isProper_functionGrants (functions : List Signature) {identifier : Text}
    (h : identifier ∈ (functionGrants functions).map Grant.name) : Name.IsProper identifier := by
  obtain ⟨grant, hg, rfl⟩ := List.mem_map.mp h
  obtain ⟨r, hr, before, rfl⟩ := Grant.mem_answerAll hg
  obtain ⟨f, -, rfl⟩ := List.mem_map.mp hr
  apply Name.isProper_answer (Name.isPlain_of_all (by decide)) before
  · intro name ha
    obtain ⟨⟨schema, last⟩, -, rfl⟩ := Option.map_eq_some_iff.mp ha
    exact Name.isProper_identifier _ (Name.isProper_of_all (by decide) (by decide))
  · exact Name.isProper_function f.name

theorem exists_className_append (s : Schema) (identifiers : List Text) (plans : List Plan)
    {className : Text} (h : className ∈ Grant.granted (classGrants s identifiers plans)) :
    ∃ name rest, Name.IsPlain rest ∧ className = Name.className name ++ rest := by
  obtain ⟨requests, hg, hm⟩ := exists_classRequests s identifiers plans
  rw [hg] at h
  obtain ⟨r, hr, before, rfl⟩ := Grant.mem_granted_answerEach h
  have hnone : Name.IsPlain [] := Name.isPlain_of_all rfl
  obtain ⟨name, rest, hp, hw⟩ :
      ∃ name rest, Name.IsPlain rest ∧ r.wanted = Name.className name ++ rest := by
    have hrecord (sqlName : Text) :
        ∃ name rest, Name.IsPlain rest ∧ Name.recordClass sqlName = Name.className name ++ rest :=
      ⟨_, [], hnone, by rw [Name.recordClass_eq, List.append_nil]⟩
    cases (hm r).mp hr with
    | @enum e _ => exact ⟨Name.bare e.name, [], hnone, (List.append_nil _).symm⟩
    | @table t _ _ _ => exact hrecord t.name
    | @composite c _ => exact hrecord c.name
    | @result _ identifier _ _ => exact ⟨identifier, _, Name.isPlain_of_all (by decide), rfl⟩
  apply Grant.answer_induction (P := fun className => ∃ name rest, Name.IsPlain rest ∧
    className = Name.className name ++ rest) before ⟨name, rest, hp, hw⟩
  · intro alternative hs
    rw [((hm r).mp hr).alternative] at hs
    cases hs
  · intro n
    refine ⟨name, rest ++ [] ++ Text.ofNat n, (hp.append hnone).append (Name.isPlain_ofNat n), ?_⟩
    rw [Grant.numbered, hw]
    simp only [List.append_assoc]
    rfl

section Classes

variable {s : Schema} {plans : List (Plan × List Diagnostic)} {className : Text}

theorem exists_className_of_mem (h : className ∈ (assemble s plans).classNamesInUse) :
    ∃ name rest, Name.IsPlain rest ∧ className = Name.className name ++ rest := by
  have hs := classes_sublist s plans
  rw [List.map_map] at hs
  exact exists_className_append s _ _ (hs.subset h)

theorem isProper_classNamesInUse (h : className ∈ (assemble s plans).classNamesInUse) :
    Name.IsProper className := by
  obtain ⟨name, rest, hp, rfl⟩ := exists_className_of_mem h
  exact (Name.isProper_className name).append hp

theorem startsWithDigit_classNamesInUse (h : className ∈ (assemble s plans).classNamesInUse) :
    Name.startsWithDigit className = false := by
  obtain ⟨name, rest, -, rfl⟩ := exists_className_of_mem h
  rw [Name.startsWithDigit_append (Name.isProper_className name).nonempty]
  exact Name.startsWithDigit_className name

end Classes

theorem isProper_wantedParameter (p : Parameter) (index : Nat) :
    Name.IsProper (wantedParameter p index) := by
  unfold wantedParameter
  split
  · rename_i name _
    have hn := Name.isProper_parameter name
    dsimp only
    split
    · exact hn.append (Name.isPlain_of_all (by decide))
    · exact hn
  · have ha : Name.IsProper "arg".toList := Name.isProper_of_all (by decide) (by decide)
    exact ha.append (Name.isPlain_ofNat (index + 1))

theorem isProper_arguments {names : ClassNames} {catalog : Catalog} {f : Signature} {a : Argument}
    (h : a ∈ (arguments names catalog f).value) : Name.IsProper a.identifier := by
  have hi := List.mem_map_of_mem (f := Argument.identifier) h
  rw [identifiers_arguments] at hi
  obtain ⟨grant, hg, he⟩ := List.mem_map.mp hi
  obtain ⟨r, hr, before, rfl⟩ := Grant.mem_answerAll hg
  obtain ⟨⟨p, i⟩, -, rfl⟩ := List.mem_map.mp hr
  rw [← he]
  exact Name.isProper_answer (Name.isPlain_of_all (by decide)) before nofun
    (isProper_wantedParameter p i)

theorem isPlain_members (e : EnumType) (ref : EnumRef) {m : EnumMember}
    (h : m ∈ (enumClass e ref).value.members) : Name.IsPlain m.name := by
  have hn := List.mem_map_of_mem (f := EnumMember.name) h
  rw [names_members] at hn
  obtain ⟨grant, hg, he⟩ := List.mem_map.mp hn
  obtain ⟨r, hr, before, rfl⟩ := Grant.mem_answerAll hg
  obtain ⟨label, -, rfl⟩ := List.mem_map.mp hr
  rw [← he]
  exact Name.isPlain_answer (Name.isPlain_of_all (by decide)) before nofun
    (Name.isPlain_member label)

theorem namesProper_assemble (s : Schema) (plans : List (Plan × List Diagnostic)) :
    (assemble s plans).NamesProper where
  functions := by
    intro w hw
    rw [assemble_wrappers, wrapped_eq] at hw
    obtain ⟨planned, hm, rfl⟩ := List.mem_map.mp hw
    obtain ⟨⟨⟨⟨f, identifier⟩, plan⟩, resultClass⟩, hz, rfl⟩ := List.mem_map.mp hm
    have hi := (List.of_mem_zip (List.of_mem_zip (List.of_mem_zip hz).1).1).2
    exact isProper_functionGrants s.functions hi
  classes _ := isProper_classNamesInUse
  parameters := by
    intro w hw a ha
    rw [assemble_wrappers] at hw
    obtain ⟨planned, hm, rfl⟩ := List.mem_map.mp hw
    obtain ⟨f, identifier, plan, resultClass, -, rfl⟩ := exists_planned hm
    exact isProper_arguments ha
  members := by
    intro e he m hm
    rw [enums_eq] at he
    obtain ⟨⟨type, ref⟩, -, rfl⟩ := List.mem_map.mp he
    exact isPlain_members type ref hm

end Bindery.Binding
