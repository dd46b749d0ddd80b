import Bindery.Proofs.Binding.ProperNames
import Bindery.Proofs.Module.Literal
import Bindery.Proofs.Schema.EnumStatement
import Bindery.Proofs.Text.Lines

namespace Bindery

namespace EnumMember

def line (m : EnumMember) : Text :=
  Module.indent ++ (m.name ++ (" = " ++ Module.quote m.label))

/-- Reads a line that assigns a string to a name: the name and the text that the literal denotes. -/
def read? (line : Text) : Option (Text × Text) := do
  let assignment ← Text.dropFront? Module.indent line
  let name := assignment.takeWhile Name.isIdentifierChar
  let literal ← Text.dropFront? " = " (assignment.drop name.length)
  let value ← Module.readLiteral? literal
  return (name, value)

theorem read?_line {m : EnumMember} (h : Name.IsPlain m.name) :
    read? m.line = if '\x00' ∈ m.label then none else some (m.name, m.label) := by
  have hf (front back : Text) : Text.dropFront? front (front ++ back) = some back := by
    simp [Text.dropFront?]
  have hn : (m.name ++ (" = " ++ Module.quote m.label)).takeWhile Name.isIdentifierChar =
      m.name := by
    have hs : " = " ++ Module.quote m.label = ' ' :: ("= " ++ Module.quote m.label) := rfl
    rw [List.takeWhile_append_of_pos h, hs, List.takeWhile_cons_of_neg (by decide),
      List.append_nil]
  rw [read?, line, hf]
  simp only [Option.bind_eq_bind, Option.bind_some]
  rw [hn, List.drop_left, hf, Option.bind_some, Module.readLiteral?_quote]
  split <;> rfl

theorem newline_not_mem_line {m : EnumMember} (h : Name.IsPlain m.name) : '\n' ∉ m.line := by
  simp only [line, List.mem_append, not_or]
  exact ⟨by decide, h.no_newline, by decide, Module.newline_not_mem_quote m.label⟩

theorem dropReturn_line (m : EnumMember) : Text.dropReturn m.line = m.line := by
  have hl : m.line = Module.indent ++ (m.name ++ (" = " ++
      ("'" ++ m.label.flatMap Module.escapeChar))) ++ ['\''] := by
    simp [line, Module.quote]
  rw [hl]
  exact Text.dropReturn_of_last (by decide)

end EnumMember

namespace EnumClass

def bodyLines (c : EnumClass) : List Text :=
  if c.members.isEmpty then [Module.indent ++ "pass"] else c.members.map EnumMember.line

theorem render_eq (c : EnumClass) :
    c.render = (("class " ++ (c.className ++ "(Enum):")) :: c.bodyLines).flatMap
      fun l => l ++ ['\n'] := by
  have hhead : ("class " ++ c.className ++ "(Enum):\n" : Text) =
      "class " ++ (c.className ++ "(Enum):") ++ ['\n'] := by
    have he : ("(Enum):\n" : Text) = "(Enum):" ++ ['\n'] := rfl
    simp only [he, List.append_assoc]
  have hmember (m : EnumMember) :
      (Module.indent ++ m.name ++ " = " ++ Module.quote m.label ++ "\n" : Text) =
        m.line ++ ['\n'] := by
    have he : ("\n" : Text) = ['\n'] := rfl
    simp only [EnumMember.line, he, List.append_assoc]
  have hbody : (if c.members.isEmpty then Module.indent ++ "pass\n"
      else c.members.flatMap fun m =>
        Module.indent ++ m.name ++ " = " ++ Module.quote m.label ++ "\n" : Text) =
      c.bodyLines.flatMap fun l => l ++ ['\n'] := by
    unfold bodyLines
    split
    · rfl
    · simp only [hmember, List.flatMap_map]
  rw [List.flatMap_cons]
  exact congrArg₂ (· ++ ·) hhead hbody

theorem lines_render {c : EnumClass} (hc : Name.IsPlain c.className)
    (hm : ∀ m ∈ c.members, Name.IsPlain m.name) :
    Text.lines c.render = ("class " ++ (c.className ++ "(Enum):")) :: c.bodyLines := by
  have hlast : ("class " ++ (c.className ++ "(Enum):") : Text) =
      "class " ++ (c.className ++ "(Enum)") ++ [':'] := by
    have he : ("(Enum):" : Text) = "(Enum)" ++ [':'] := rfl
    simp only [he, List.append_assoc]
  have hbody : ∀ l ∈ c.bodyLines, '\n' ∉ l ∧ Text.dropReturn l = l := by
    intro l hl
    unfold bodyLines at hl
    split at hl
    · rw [List.mem_singleton.mp hl]
      exact ⟨by decide, by decide⟩
    · obtain ⟨m, hm', rfl⟩ := List.mem_map.mp hl
      exact ⟨EnumMember.newline_not_mem_line (hm m hm'), m.dropReturn_line⟩
  rw [render_eq]
  apply Text.lines_flatMap
  · rw [List.forall_mem_cons]
    refine ⟨?_, fun l hl => (hbody l hl).1⟩
    simp only [List.mem_append, not_or]
    exact ⟨by decide, hc.no_newline, by decide⟩
  · rw [List.forall_mem_cons, hlast]
    exact ⟨Text.dropReturn_of_last (by decide), fun l hl => (hbody l hl).2⟩

end EnumClass

namespace Binding

theorem labels_members (e : EnumType) (ref : EnumRef) :
    (enumClass e ref).value.members.map EnumMember.label = e.labels := by
  simp only [enumClass, List.map_map]
  exact (map_snd_of_zip (by simp [Grant.length_answerAll]) id).trans (List.map_id _)

theorem build_onlyEnum {s : Schema} {enum : EnumType} (h : s.OnlyEnum enum) (strict : Bool) :
    ∃ b ref, build s strict = .ok b ∧ b.enums = [(enumClass enum ref).value] ∧ b.records = [] ∧
      b.wrappers = [] ∧ Name.IsPlain ref.className := by
  obtain ⟨⟨tables, composites, ⟨entries, keys⟩, domains⟩, functions, diagnostics⟩ := s
  obtain ⟨he, ht, hc, hf⟩ := h
  subst he ht hc hf
  refine ⟨_, ⟨normalizeKey enum.name, (Grant.answer "" reservedClasses (enumRequest enum)).name⟩,
    rfl, rfl, rfl, rfl, ?_⟩
  exact Name.isPlain_answer (Name.isPlain_of_all (by decide)) _ nofun
    (Name.isPlain_className _)

theorem generate_onlyEnum {b : Binding} {c : EnumClass} (he : b.enums = [c]) (hr : b.records = [])
    (hw : b.wrappers = []) (options : Options) :
    ∃ g, b.generate options = .ok g ∧ g.source.blocks.filterMap Block.enum? = [c] := by
  have hs : b.checkShadowing = .ok () := by rw [checkShadowing, hw]; rfl
  have ho : b.orderedRecords = .ok [] := by
    rw [orderedRecords, hr]
    simp [Order.sort, Order.outcome, Order.start, Order.run, Order.byName]
  have hb : (b.blocks options []).filterMap Block.enum? = [c] := by
    have hcode : (b.codeBlocks options []).filterMap Block.enum? = [] :=
      List.filterMap_eq_nil_iff.mpr fun _ hb => (codeBlocks_define_nothing hb).1
    rw [blocks_eq, enumsByName, he, List.mergeSort_singleton, List.filterMap_append,
      List.filterMap_append, hcode]
    rfl
  have hg : ∃ g, b.generate options = .ok g ∧ g.source.blocks = b.blocks options [] := by
    rw [generate, hs, ho]
    exact ⟨_, rfl, rfl⟩
  obtain ⟨g, hg, hblocks⟩ := hg
  exact ⟨g, hg, hblocks ▸ hb⟩

end Binding

/--
Labels survive from the statement to the class. Wherever a statement stands that declares an enum
type, it is read as exactly the labels that were written; of the statement alone comes a module with
one enum class, whose members have these labels in order and distinct names, and each line of the
class is read as the name of its member and the label. Only a label with a null character, which is
written as it is, makes its line unreadable.
-/
theorem EnumSpec.generate_labels (e : EnumSpec) (options : Options) :
    (∀ position doc, Declaration.ofStatement ⟨e.print, position, doc⟩ =
      .ok (.enum ⟨e.name.text, e.labels⟩)) ∧
    ∃ s g c, Schema.parse e.print none = .ok s ∧
      s.catalog.enums.entries = [⟨e.name.text, e.labels⟩] ∧
      generate e.print none options = .ok g ∧
      g.source.blocks.filterMap Block.enum? = [c] ∧
      Module.trimNewlines c.render <:+: g.code ∧
      c.members.map EnumMember.label = e.labels ∧
      (c.members.map EnumMember.name).Nodup ∧
      (Text.lines c.render).tail.map EnumMember.read? =
        if e.labels.isEmpty then [none]
        else c.members.map fun m =>
          if '\x00' ∈ m.label then none else some (m.name, m.label) := by
  obtain ⟨s, hs, honly⟩ := e.parse_print
  obtain ⟨b, ref, hb, henums, hrecords, hwrappers, hclass⟩ :=
    Binding.build_onlyEnum honly options.strict
  obtain ⟨g, hg, hblocks⟩ := Binding.generate_onlyEnum henums hrecords hwrappers options
  have hmem : Block.enumClass (Binding.enumClass e.type ref).value ∈ g.source.blocks := by
    have hc : (Binding.enumClass e.type ref).value ∈ g.source.blocks.filterMap Block.enum? := by
      simp [hblocks]
    obtain ⟨block, hm, he⟩ := List.mem_filterMap.mp hc
    cases block <;> cases he
    exact hm
  have hplain := fun m hm => Binding.isPlain_members e.type ref (m := m) hm
  have hlabels := Binding.labels_members e.type ref
  refine ⟨e.ofStatement_print, s, g, _, hs, honly.enums, (generate_of_build hs hb).trans hg,
    hblocks, Module.block_infix_render hmem, hlabels, ?_, ?_⟩
  · rw [Binding.names_members]
    exact (Grant.nodup_answerAll "_" [] _).1
  · have hempty : (Binding.enumClass e.type ref).value.members.isEmpty = e.labels.isEmpty := by
      rw [← List.isEmpty_map, hlabels]
      rfl
    rw [EnumClass.lines_render hclass hplain, List.tail_cons, EnumClass.bodyLines, hempty]
    split
    · rfl
    · rw [List.map_map]
      exact List.map_congr_left fun m hm => EnumMember.read?_line (hplain m hm)

/-- Labels with marks of every kind, two of them with one wanted name. -/
def markedSpec : EnumSpec where
  name := .word ['n'] (isWord_of_all (by decide) (by decide))
  labels := ["a;--(\n'".toList, "A\\".toList, []]
  gap := " \n"
  gap_blank := List.all_eq_true.mp (by decide)

theorem EnumSpec.generate_labels_of_marks : ∃ g c,
    generate "CREATE TYPE n AS ENUM ('a;--(\n''', \n'A\\', \n'')".toList none {} = .ok g ∧
      g.source.blocks.filterMap Block.enum? = [c] ∧ (c.members.map EnumMember.name).Nodup ∧
      ((Text.lines c.render).tail.map EnumMember.read?).map (Option.map Prod.snd) =
        [some "a;--(\n'".toList, some "A\\".toList, some []] := by
  obtain ⟨-, s, g, c, -, -, hg, hc, -, hlabels, hnames, hlines⟩ := markedSpec.generate_labels {}
  refine ⟨g, c, hg, hc, hnames, ?_⟩
  rw [hlines, if_neg (by decide), List.map_map]
  calc _ = (c.members.map EnumMember.label).map fun l => if '\x00' ∈ l then none else some l := by
        rw [List.map_map]
        refine List.map_congr_left fun m _ => ?_
        simp only [Function.comp_apply]
        split <;> rfl
    _ = _ := by
        rw [hlabels]
        decide

def nullSchema : Schema where
  catalog := { enums := ⟨[⟨"n", [['\x00']]⟩], [("n", 0)]⟩ }

def nullClass : EnumClass :=
  ⟨"n", "N", [⟨"EMPTY", ['\x00']⟩]⟩

/-- A literal denotes the null character, but the class is written with one that denotes nothing. -/
theorem EnumSpec.null_label_unreadable :
    Schema.parse "CREATE TYPE n AS ENUM ('\x00')".toList none = .ok nullSchema ∧
      Binding.build nullSchema true = .ok { enums := [nullClass] } ∧
      nullClass.render = "class N(Enum):\n    EMPTY = '\x00'\n".toList ∧
      (Text.lines nullClass.render).tail.map EnumMember.read? = [none] ∧
      EnumMember.read? "    EMPTY = '\\x00'".toList = some ("EMPTY".toList, ['\x00']) :=
  ⟨by decide +kernel, by decide +kernel, by decide +kernel, by decide +kernel, by decide +kernel⟩

end Bindery
