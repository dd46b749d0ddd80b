import Bindery.Module.Generate
import Bindery.Proofs.Module.Sections
import Bindery.Proofs.Text.Basic
import Bindery.Proofs.Text.Lines
import Bindery.Proofs.Text.Sorted

namespace Bindery

namespace Imports

/-- Whether all imports are among those that generated code makes. -/
def isKnown (i : Imports) : Bool :=
  i.modules.all (· == "json".toList) && i.names.all Code.importedNames.contains

theorem isKnown_append (i j : Imports) : (i ++ j).isKnown = (i.isKnown && j.isKnown) := by
  change ((i.modules ++ j.modules).all _ && (i.names ++ j.names).all _) = _
  rw [List.all_append, List.all_append, isKnown, isKnown]
  ac_rfl

theorem isKnown_concat {parts : List Imports} (h : ∀ i ∈ parts, i.isKnown = true) :
    (concat parts).isKnown = true := by
  induction parts with
  | nil => rfl
  | cons first rest ih =>
    obtain ⟨hf, hr⟩ := List.forall_mem_cons.mp h
    change (first ++ concat rest).isKnown = true
    rw [isKnown_append, hf, ih hr]
    rfl

end Imports

theorem Scalar.isKnown_imports (s : Scalar) : (Hint.scalar s).imports.isKnown = true := by
  cases s <;> decide

theorem Hint.isKnown_imports (h : Hint) : h.imports.isKnown = true := by
  induction h with
  | none => rfl
  | any => decide
  | scalar s => exact s.isKnown_imports
  | named => rfl
  | list item ih =>
    have hl : (Imports.ofNames "typing" ["List"]).isKnown = true := by decide
    rw [imports, Imports.isKnown_append, hl, ih]
    rfl
  | optional item ih =>
    have ho : (Imports.ofNames "typing" ["Optional"]).isKnown = true := by decide
    rw [imports, Imports.isKnown_append, ho, ih]
    rfl

theorem Converter.isKnown_imports (c : Converter) : c.imports.isKnown = true := by
  cases c <;> decide

theorem SupportSection.isKnown_imports (part : SupportSection) : part.imports.isKnown = true := by
  cases part with
  | convertScalar converters =>
    have ha : (Imports.ofNames "typing" ["Any"]).isKnown = true := by decide
    have hc : (Imports.concat (converters.map Converter.imports)).isKnown = true := by
      apply Imports.isKnown_concat
      intro i hi
      obtain ⟨c, -, rfl⟩ := List.mem_map.mp hi
      exact c.isKnown_imports
    rw [imports, Imports.isKnown_append, ha, hc]
    rfl
  | _ => decide

theorem Imports.isKnown_hints {α : Type} (xs : List α) (hint : α → Hint) :
    (concat (xs.map fun x => (hint x).imports)).isKnown = true := by
  apply isKnown_concat
  intro i hi
  obtain ⟨x, -, rfl⟩ := List.mem_map.mp hi
  exact (hint x).isKnown_imports

theorem Block.isKnown_imports (block : Block) : block.imports.isKnown = true := by
  have henum : (Imports.ofNames "enum" ["Enum"]).isKnown = true := by decide
  cases block with
  | enumClass e => exact henum
  | recordClass r =>
    have hd : (Imports.ofNames "dataclasses" ["dataclass"]).isKnown = true := by decide
    rw [imports, RecordClass.imports, Imports.isKnown_append, hd, Imports.isKnown_hints]
    rfl
  | support part => exact part.isKnown_imports
  | registrations => rfl
  | manifest => rfl
  | wrapper c =>
    rw [imports, WrapperCode.imports, Imports.isKnown_append, Imports.isKnown_append,
      Imports.isKnown_hints, c.result.isKnown_imports]
    split
    · exact henum
    · rfl

theorem Block.isKnown_concat (blocks : List Block) :
    (Imports.concat (blocks.map Block.imports)).isKnown = true := by
  apply Imports.isKnown_concat
  intro i hi
  obtain ⟨block, -, rfl⟩ := List.mem_map.mp hi
  exact block.isKnown_imports

namespace Code

/-- A line of the code binds the name: it is imported from a module that exports it, or it is a
module, and no name of another one, and imported whole. -/
inductive Imported (code name : Text) : Prop where
  | fromModule (module : Text) (names : List Text) (exported : isExportedBy module name = true)
    (listed : name ∈ names)
    (line : ['\n'] ++ ("from ".toList ++ module ++ " import ".toList ++ Text.join ", " names) ++
      ['\n'] <:+: code)
  | whole (alone : ∀ module, isExportedBy module name = false)
    (line : ['\n'] ++ ("import ".toList ++ name) ++ ['\n'] <:+: code)

theorem isExportedBy_json (module : Text) : isExportedBy module "json" = false := by
  rw [isExportedBy, List.any_eq_false]
  intro e he
  have hj := List.all_eq_true.mp json_not_exported e he
  rw [Bool.not_eq_true'] at hj
  rw [hj, Bool.and_false]
  exact Bool.false_ne_true

end Code

namespace Module

theorem line_infix_render {m : Module} {module line : Text}
    (hm : module ∈ m.imports.modules ++ m.imports.names.map Prod.fst)
    (hl : line ∈ m.imports.linesOf module) : ['\n'] ++ line ++ ['\n'] <:+: m.render := by
  have hlines : line ∈ (Text.sortedSet (m.imports.modules ++ m.imports.names.map Prod.fst)).flatMap
      m.imports.linesOf :=
    List.mem_flatMap.mpr ⟨module, Text.mem_sortedSet.mpr hm, hl⟩
  have hne : m.imports.isEmpty = false := by
    cases he : m.imports.isEmpty with
    | false => rfl
    | true =>
      rw [Imports.isEmpty, Bool.and_eq_true, List.isEmpty_iff, List.isEmpty_iff] at he
      rw [he.1, he.2] at hm
      cases hm
  have hj : ['\n'] ++ line ++ ['\n'] <:+: ['\n'] ++ m.imports.render ++ ['\n'] :=
    Text.infix_join hlines
  refine hj.trans ?_
  have hopen : ". Do not edit.\n\n".toList = ". Do not edit.\n".toList ++ ['\n'] := by decide
  have hclose : "\n\n".toList = ['\n'] ++ ['\n'] := by decide
  unfold render header
  dsimp only
  rw [hne, hopen, hclose, if_neg Bool.false_ne_true]
  refine ⟨"# -*- coding: utf-8 -*-\n# Auto-generated by sqlbind".toList ++
    (m.sourceName.map fun name => (" from " : Text) ++ name).getD [] ++ ". Do not edit.\n".toList,
    ['\n'] ++ "from psycopg import AsyncConnection".toList ++ (m.blocks.flatMap fun block =>
      "\n\n\n".toList ++ trimNewlines block.render) ++ "\n".toList, ?_⟩
  simp only [List.append_assoc]

theorem imported_of_binds {m : Module} {name : Text} (hk : m.imports.isKnown = true)
    (hb : m.imports.binds name = true) : Code.Imported m.render name := by
  rw [Imports.isKnown, Bool.and_eq_true, List.all_eq_true, List.all_eq_true] at hk
  rw [Imports.binds, Bool.or_eq_true, List.contains_iff_mem, List.any_eq_true] at hb
  rcases hb with hm | ⟨⟨module, other⟩, hp, he⟩
  · have hj : name = "json".toList := by simpa using hk.1 name hm
    refine .whole (hj ▸ Code.isExportedBy_json) ?_
    apply line_infix_render (List.mem_append_left _ hm)
    rw [Imports.linesOf]
    apply List.mem_append_right
    rw [if_pos (List.contains_iff_mem.mpr hm)]
    exact List.mem_singleton.mpr rfl
  · cases (beq_iff_eq.mp he : other = name)
    have hexported : Code.isExportedBy module name = true :=
      List.all_eq_true.mp Code.all_importedNames _ (List.contains_iff_mem.mp (hk.2 _ hp))
    have hlisted : name ∈ m.imports.namesOf module := by
      rw [Imports.namesOf, Text.mem_sortedSet]
      exact List.mem_map.mpr ⟨_, List.mem_filter.mpr ⟨hp, beq_self_eq_true module⟩, rfl⟩
    refine .fromModule module _ hexported hlisted ?_
    apply line_infix_render (List.mem_append_right _ (List.mem_map_of_mem hp))
    rw [Imports.linesOf]
    apply List.mem_append_left
    have hne : (m.imports.namesOf module).isEmpty = false :=
      List.isEmpty_eq_false_iff.mpr (List.ne_nil_of_mem hlisted)
    dsimp only
    rw [hne, if_neg Bool.false_ne_true]
    exact List.mem_singleton.mpr rfl

end Module

end Bindery
