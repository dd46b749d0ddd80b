import Bindery.Proofs.Binding.Collisions
import Bindery.Proofs.Module.DefinitionOrder
import Bindery.Proofs.Text.Sorted
import Mathlib.Data.List.Perm.Basic

namespace Bindery

/-- The names of one scope are distinct, and none of them is reserved. -/
structure Apart (reserved names : List Text) : Prop where
  distinct : names.Nodup
  unreserved : ∀ name ∈ names, name ∉ reserved

theorem Apart.answerAll (separator : Text) (reserved : List Text) (requests : List Request) :
    Apart reserved ((Grant.answerAll separator reserved requests).map Grant.name) :=
  ⟨(Grant.nodup_answerAll separator reserved requests).1,
    (Grant.nodup_answerAll separator reserved requests).2⟩

theorem Apart.sublist {reserved names others : List Text} (h : Apart reserved names)
    (hs : others.Sublist names) : Apart reserved others :=
  ⟨h.distinct.sublist hs, fun name hn => h.unreserved name (hs.subset hn)⟩

def Block.manifest? : Block → Option (List Text)
  | .manifest names => some names
  | _ => none

namespace Binding

/-- All names that are given: to wrappers, classes, members, attributes and parameters. -/
def names (b : Binding) : List Text :=
  b.wrappers.map Wrapper.identifier ++ b.classNamesInUse ++
    b.enums.flatMap (fun e => e.members.map EnumMember.name) ++
    (b.records.flatMap (fun r => r.fields.map Field.identifier) ++
      b.wrappers.flatMap fun w => w.params.map Argument.identifier)

theorem underscore_unreserved {name : Text} (h : '_' ∈ name) : name ∉ reservedParameters := by
  intro hm
  rcases List.mem_cons.mp hm with rfl | hm
  · exact absurd h (by decide)
  · rcases List.mem_cons.mp hm with rfl | hm
    · exact absurd h (by decide)
    · cases hm

theorem wantedParameter_unreserved (p : Parameter) (index : Nat) :
    wantedParameter p index ∉ reservedParameters := by
  unfold wantedParameter
  cases p.name with
  | none =>
    intro hm
    rcases List.mem_cons.mp hm with hm | hm
    · cases hm
    · rcases List.mem_cons.mp hm with hm | hm <;> cases hm
  | some name =>
    dsimp only
    split
    · exact underscore_unreserved (List.mem_append_right _ List.mem_cons_self)
    · rename_i h
      simpa using h

section Scopes

variable (names : ClassNames) (catalog : Catalog)

theorem names_members (e : EnumType) (ref : EnumRef) :
    (enumClass e ref).value.members.map EnumMember.name =
      (Grant.answerAll "_" [] (e.labels.map fun label =>
        ⟨Name.member label, none, "label '" ++ label ++ "' of enum " ++ e.name⟩)).map
          Grant.name := by
  simp only [enumClass, List.map_map]
  exact map_fst_of_zip (by simp [Grant.length_answerAll]) Grant.name

theorem identifiers_fields (owner : Text) (columns : List Column) :
    (fields names catalog owner columns).value.map Field.identifier =
      (Grant.answerAll "_" [] (columns.map fun c =>
        ⟨Name.field c.name, none, columnSubject owner c⟩)).map Grant.name := by
  simp only [fields, Noted.all, List.map_map]
  exact map_snd_of_zip (by simp [Grant.length_answerAll]) Grant.name

theorem identifiers_arguments (f : Signature) :
    (arguments names catalog f).value.map Argument.identifier =
      (Grant.answerAll "_" [] (f.inputs.zipIdx.map fun (p, i) =>
        ⟨wantedParameter p i, none, parameterSubject f p i⟩)).map Grant.name := by
  simp only [arguments, Noted.all, List.map_map]
  exact map_snd_of_zip (by simp [Grant.length_answerAll]) Grant.name

theorem apart_arguments (f : Signature) :
    Apart reservedParameters ((arguments names catalog f).value.map Argument.identifier) := by
  rw [identifiers_arguments]
  refine ⟨(Grant.nodup_answerAll "_" [] _).1, ?_⟩
  intro name hn
  obtain ⟨grant, hg, rfl⟩ := List.mem_map.mp hn
  obtain ⟨r, hr, before, rfl⟩ := Grant.mem_answerAll hg
  obtain ⟨⟨p, i⟩, _, rfl⟩ := List.mem_map.mp hr
  apply Grant.answer_induction (P := (· ∉ reservedParameters)) before
  · exact wantedParameter_unreserved p i
  · intro name h
    cases h
  · intro n
    apply underscore_unreserved
    exact List.mem_append_left _ (List.mem_append_right _ List.mem_cons_self)

end Scopes

section Assembled

variable {s : Schema} {plans : List (Plan × List Diagnostic)}

theorem apart_classes : Apart reservedClasses (assemble s plans).classNamesInUse := by
  have hg : Apart reservedClasses (Grant.granted (grantsFor s (plans.map Prod.fst))) :=
    ⟨(Grant.granted_answerEach _ _ _).1, (Grant.granted_answerEach _ _ _).2⟩
  have hs := classes_sublist s plans
  rw [List.map_map] at hs
  exact hg.sublist hs

theorem identifiers_assemble (hl : (plans.map Prod.fst).length = s.functions.length) :
    (assemble s plans).wrappers.map Wrapper.identifier =
      (functionGrants s.functions).map Grant.name := by
  rw [assemble_wrappers, wrapped_eq, List.map_map, List.map_map]
  exact (map_placed hl).2.1

theorem exists_fields {r : RecordClass} (h : r ∈ (assemble s plans).records) :
    ∃ owner columns, r.fields =
      (fields (namesFor s (plans.map Prod.fst)) s.catalog owner columns).value := by
  rw [assemble_records, List.mem_append, List.mem_append] at h
  rcases h with h | h | h
  · obtain ⟨noted, hn, rfl⟩ := List.mem_map.mp h
    obtain ⟨x, _, hx⟩ := List.mem_filterMap.mp hn
    obtain ⟨className, _, rfl⟩ := Option.map_eq_some_iff.mp hx
    exact ⟨_, _, rfl⟩
  · obtain ⟨noted, hn, rfl⟩ := List.mem_map.mp h
    obtain ⟨x, _, rfl⟩ := List.mem_map.mp hn
    exact ⟨_, _, rfl⟩
  · obtain ⟨w, hw, hr⟩ := List.mem_filterMap.mp h
    obtain ⟨f, identifier, plan, resultClass, _, rfl⟩ := exists_planned hw
    obtain ⟨columns, className, _, _, rfl⟩ := result_record hr
    exact ⟨_, _, rfl⟩

end Assembled

/-- The wrappers and enum classes stand in the order of the functions and enums of the schema. -/
structure Follows (b : Binding) (s : Schema) : Prop where
  functions : b.wrappers.map Wrapper.name = s.functions.map Signature.name
  enums : b.enums.map EnumClass.sqlName = s.catalog.enums.entries.map fun e => normalizeKey e.name

theorem follows_assemble {s : Schema} {plans : List (Plan × List Diagnostic)}
    (hl : (plans.map Prod.fst).length = s.functions.length) : (assemble s plans).Follows s where
  functions := by
    have hf := congrArg (List.map Signature.name) (map_placed hl).1
    rw [List.map_map] at hf
    rw [assemble_wrappers, wrapped_eq, List.map_map, List.map_map]
    exact hf
  enums := by
    obtain ⟨parts⟩ := nonempty_grantParts s (plans.map Prod.fst)
    have he := congrArg (List.map EnumRef.sqlName) (assemble_enums s plans)
    rw [List.map_map, parts.names_enums, List.map_map] at he
    exact he.trans (map_fst_of_zip (Nat.le_of_eq parts.length_enums.symm)
      fun e => normalizeKey e.name)

theorem manifests_blocks (b : Binding) (options : Options) (records : List RecordClass) :
    (b.blocks options records).filterMap Block.manifest? = [b.exports] := by
  have hnone {α : Type} (f : α → Block) (h : ∀ x, (f x).manifest? = none) (xs : List α) :
      (xs.map f).filterMap Block.manifest? = [] := by
    rw [List.filterMap_map, List.filterMap_eq_nil_iff]
    exact fun x _ => h x
  have hs : (b.supportBlocks records).filterMap Block.manifest? = [] := by
    rw [supportBlocks, List.filterMap_append, hnone Block.support fun _ => rfl]
    split <;> rfl
  simp only [blocks, List.filterMap_append, hnone Block.enumClass fun _ => rfl,
    hnone Block.recordClass fun _ => rfl, hnone Block.wrapper fun _ => rfl]
  split
  · rfl
  · rw [hs]
    rfl

end Binding

end Bindery
