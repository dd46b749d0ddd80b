import Bindery.Proofs.Module.Descriptions
import Mathlib.Data.List.DropRight

namespace Bindery

namespace Code

/-- The literal and the class in a line that registers an enum. -/
def registration? (line : Text) : Option (Text × Text) := do
  let call ← Text.dropFront? "_register_enum(" line
  let arguments ← Text.dropBack? ")" call
  let className := arguments.rtakeWhile Name.isIdentifierChar
  let literal ← Text.dropBack? (", " ++ className) arguments
  return (literal, className)

/-- The enums that the lines of a text register, as they are written, with their classes. -/
def registrations (t : Text) : List (Text × Text) :=
  (Text.lines t).filterMap registration?

/-- Whatever follows, the text registers the given enums. -/
def Registers (t : Text) (rs : List (Text × Text)) : Prop :=
  ∀ rest, registrations (t ++ rest) = rs ++ registrations rest

theorem registers_nil : Registers [] [] :=
  fun _ => rfl

theorem Registers.append {a b : Text} {rs qs : List (Text × Text)} (ha : Registers a rs)
    (hb : Registers b qs) : Registers (a ++ b) (rs ++ qs) := by
  intro rest
  rw [List.append_assoc, ha, hb, List.append_assoc]

theorem registers_flatMap {α : Type} {xs : List α} {f : α → Text} {g : α → List (Text × Text)}
    (h : ∀ x ∈ xs, Registers (f x) (g x)) : Registers (xs.flatMap f) (xs.flatMap g) := by
  induction xs with
  | nil => exact registers_nil
  | cons x xs ih =>
    obtain ⟨hx, hxs⟩ := List.forall_mem_cons.mp h
    exact hx.append (ih hxs)

theorem Registers.registrations_eq {t : Text} {rs : List (Text × Text)} (h : Registers t rs) :
    registrations t = rs := by
  have hr := h []
  rwa [List.append_nil, show registrations [] = [] from rfl, List.append_nil] at hr

theorem registers_lines {t : Text} {rs : List (Text × Text)} (h : registrations t = rs)
    (hl : t.getLast? = some '\n') : Registers t rs := by
  intro rest
  rw [registrations, Text.lines_append rest hl, List.filterMap_append, ← h, registrations,
    registrations]

theorem registers_line {line : Text} (h : '\n' ∉ line) :
    Registers (line ++ ['\n']) (registration? (Text.dropReturn line)).toList := by
  apply registers_lines _ List.getLast?_concat
  rw [registrations, Text.lines_line h, List.filterMap_cons]
  cases registration? (Text.dropReturn line) <;> rfl

theorem rtakeWhile_class {className : Text} (h : Name.IsPlain className) (front : Text) :
    (front ++ ' ' :: className).rtakeWhile Name.isIdentifierChar = className := by
  have hr : ∀ c ∈ className.reverse, Name.isIdentifierChar c = true := by
    intro c hc
    exact h c (List.mem_reverse.mp hc)
  have hb : Name.isIdentifierChar ' ' = false := by decide
  rw [List.rtakeWhile, List.reverse_append, List.reverse_cons, List.append_assoc,
    List.takeWhile_append_of_pos hr, List.singleton_append,
    List.takeWhile_cons_of_neg (by simp [hb]), List.append_nil, List.reverse_reverse]

theorem registration?_call {className : Text} (h : Name.IsPlain className) (literal : Text) :
    registration? ("_register_enum(" ++ (literal ++ (", " ++ className) ++ ")")) =
      some (literal, className) := by
  have hclass : (literal ++ (", ".toList ++ className)).rtakeWhile Name.isIdentifierChar =
      className := by
    have hr := rtakeWhile_class h (literal ++ [','])
    rwa [List.append_assoc] at hr
  simp only [registration?, Text.dropFront?_append, Text.dropBack?_append, hclass,
    Option.bind_eq_bind, Option.bind_some]
  rfl

theorem registration?_of_head {line : Text} (h : line.head? ≠ some '_') :
    registration? line = none := by
  have hd : Text.dropFront? "_register_enum(" line = none := by
    rw [Text.dropFront?, if_neg]
    intro hp
    obtain ⟨rest, rfl⟩ := List.isPrefixOf_iff_prefix.mp hp
    exact h rfl
  rw [registration?, hd]
  rfl

theorem registers_indented {line : Text} (hs : line.head? = some ' ') (h : '\n' ∉ line) :
    Registers (line ++ ['\n']) [] := by
  have hr := registers_line h
  rwa [registration?_of_head] at hr
  intro hd
  obtain ⟨rest, hl⟩ := Text.dropReturn_prefix line
  have hf : line.head? = some '_' := by
    rw [← hl, List.head?_append, hd]
    rfl
  rw [hs] at hf
  cases hf

end Code

namespace RegistrationCall

/-- The enum that a call registers, as it is written, with its class. -/
def registered : RegistrationCall → List (Text × Text)
  | .enum sqlName className => [(Module.quote sqlName, className)]
  | .record _ _ _ => []

theorem newline_not_mem_dictionary {entries : List Text} (h : ∀ e ∈ entries, '\n' ∉ e) :
    '\n' ∉ dictionary entries := by
  have hopen : '\n' ∉ "\x7b".toList := by decide
  have hclose : '\n' ∉ "\x7d".toList := by decide
  have hjoin : '\n' ∉ Text.join ", " entries := by
    intro hn
    rcases Text.mem_join hn with hn | ⟨e, he, hn⟩
    · exact absurd hn (by decide)
    · exact h e he hn
  simp only [dictionary, List.mem_append, hopen, hjoin, hclose, or_self, not_false_eq_true]

theorem newline_not_mem_entry {value : Text} (h : '\n' ∉ value) (key : Text) :
    '\n' ∉ entry key value := by
  have hcolon : '\n' ∉ ": ".toList := by decide
  simp only [entry, List.mem_append, Module.newline_not_mem_quote, hcolon, h, or_self,
    not_false_eq_true]

theorem newline_not_mem_arguments {c : RegistrationCall}
    (hp : ∀ name ∈ c.classNames, Name.IsProper name) : '\n' ∉ c.arguments := by
  have hcomma : '\n' ∉ ", ".toList := by decide
  cases c with
  | enum sqlName className =>
    have hname := (hp className List.mem_cons_self).plain.no_newline
    simp only [arguments, List.mem_append, Module.newline_not_mem_quote, hcomma, hname, or_self,
      not_false_eq_true]
  | record className kinds renames =>
    have hname := (hp className List.mem_cons_self).plain.no_newline
    have hkinds : '\n' ∉ dictionary (kinds.map fun kind => entry kind.1 kind.2.render) := by
      apply newline_not_mem_dictionary
      intro e he
      obtain ⟨kind, hm, rfl⟩ := List.mem_map.mp he
      refine newline_not_mem_entry (Descriptor.newline_not_mem_render ?_) _
      exact fun name hn => hp name (List.mem_cons_of_mem _ (List.mem_flatMap.mpr ⟨kind, hm, hn⟩))
    have hrenames : '\n' ∉ (if renames.isEmpty then [] else ", " ++ dictionary
        (renames.map fun rename => entry rename.1 (Module.quote rename.2)) : Text) := by
      split
      · exact List.not_mem_nil
      · rw [List.mem_append, not_or]
        refine ⟨hcomma, newline_not_mem_dictionary ?_⟩
        intro e he
        obtain ⟨rename, -, rfl⟩ := List.mem_map.mp he
        exact newline_not_mem_entry (Module.newline_not_mem_quote _) _
    simp only [arguments, List.mem_append, hname, hcomma, hkinds, hrenames, or_self,
      not_false_eq_true]

theorem registers_render {c : RegistrationCall} (hp : ∀ name ∈ c.classNames, Name.IsProper name) :
    Code.Registers c.render c.registered := by
  have hfunction : '\n' ∉ c.function := by
    cases c with
    | enum sqlName className => exact (by decide : '\n' ∉ "_register_enum".toList)
    | record className kinds renames => exact (by decide : '\n' ∉ "_register_record".toList)
  have hopen : '\n' ∉ "(".toList := by decide
  have hclose : '\n' ∉ ")".toList := by decide
  have hline : '\n' ∉ c.function ++ "(" ++ c.arguments ++ ")" := by
    simp only [List.mem_append, hfunction, hopen, newline_not_mem_arguments hp, hclose, or_self,
      not_false_eq_true]
  have hreturn : Text.dropReturn (c.function ++ "(" ++ c.arguments ++ ")") =
      c.function ++ "(" ++ c.arguments ++ ")" := Text.dropReturn_of_last (by decide)
  have hr := Code.registers_line hline
  rw [hreturn, ← render_eq] at hr
  cases c with
  | enum sqlName className =>
    have hcall := Code.registration?_call (hp className List.mem_cons_self).plain
      (Module.quote sqlName)
    have hopen : "_register_enum(".toList = "_register_enum".toList ++ "(".toList := by decide
    rw [hopen] at hcall
    unfold function arguments at hr
    simp only [List.append_assoc] at hcall hr
    rwa [hcall] at hr
  | record className kinds renames =>
    have hnone (rest : Text) : Code.registration? ("_register_record".toList ++ rest) = none := by
      rfl
    unfold function at hr
    simp only [List.append_assoc] at hr
    rwa [hnone] at hr

end RegistrationCall

namespace RowValue

theorem newline_not_mem_render {v : RowValue} (hp : ∀ c ∈ v.classNames, Name.IsProper c) :
    '\n' ∉ v.render := by
  cases v with
  | first => exact (by decide : '\n' ∉ "row[0]".toList)
  | decoded descriptor =>
    have hopen : '\n' ∉ "_decode_value(".toList := by decide
    have hrow : '\n' ∉ ", row[0])".toList := by decide
    have hdescriptor : '\n' ∉ descriptor.render := Descriptor.newline_not_mem_render hp
    unfold render
    simp only [List.mem_append, hopen, hdescriptor, hrow, or_self, not_false_eq_true]
  | record className keepEmpty =>
    have hopen : '\n' ∉ "_decode_row(".toList := by decide
    have hrow : '\n' ∉ ", colnames, row".toList := by decide
    have hend (keep : Bool) : '\n' ∉ (if keep then ", False)" else ")" : String).toList := by
      cases keep <;> decide
    have hname := (hp className List.mem_cons_self).plain.no_newline
    unfold render
    simp only [List.mem_append, hopen, hname, hrow, hend, or_self, not_false_eq_true]
  | dictionary => exact (by decide : '\n' ∉ "dict(zip(colnames, row))".toList)

end RowValue

namespace Fetch

theorem registers_columns (value : RowValue) :
    Code.Registers (render.columns margin value) [] := by
  unfold render.columns
  split
  · exact Code.registers_lines (by decide) (by decide)
  · exact Code.registers_nil

theorem registers_render {f : Fetch} (hp : ∀ c ∈ f.classNames, Name.IsProper c) :
    Code.Registers (f.render margin) [] := by
  cases f with
  | nothing => exact Code.registers_nil
  | one value =>
    have hopen : Code.Registers (margin ++ "row = await cur.fetchone()\n" ++ margin ++
        "if row is None:\n" ++ margin ++ Module.indent ++ "return None\n") [] :=
      Code.registers_lines (by decide) (by decide)
    have hstart : '\n' ∉ margin ++ "return ".toList := by decide
    have hend : "\n".toList = ['\n'] := by decide
    have hline : '\n' ∉ margin ++ "return ".toList ++ value.render :=
      List.not_mem_append hstart (RowValue.newline_not_mem_render hp)
    have hreturn := Code.registers_indented rfl hline
    have hr := hopen.append ((registers_columns value).append hreturn)
    unfold render
    rw [hend]
    simpa only [List.append_assoc, List.nil_append] using hr
  | all value =>
    have hopen : Code.Registers (margin ++ "rows = await cur.fetchall()\n") [] :=
      Code.registers_lines (by decide) (by decide)
    have hstart : '\n' ∉ margin ++ "return [".toList := by decide
    have hloop : '\n' ∉ " for row in rows]".toList := by decide
    have hend : " for row in rows]\n".toList = " for row in rows]".toList ++ ['\n'] := by decide
    have hline : '\n' ∉ margin ++ "return [".toList ++ value.render ++ " for row in rows]".toList :=
      List.not_mem_append (List.not_mem_append hstart (RowValue.newline_not_mem_render hp)) hloop
    have hreturn := Code.registers_indented rfl hline
    have hr := hopen.append ((registers_columns value).append hreturn)
    unfold render
    rw [hend]
    simpa only [List.append_assoc, List.nil_append] using hr

end Fetch

namespace WrapperCode

theorem newline_not_mem_executeArguments {c : WrapperCode}
    (hp : ∀ p ∈ c.params, Name.IsProper p.value.identifier) : '\n' ∉ c.executeArguments := by
  have hopen : '\n' ∉ ", [".toList := by decide
  have hclose : '\n' ∉ "]".toList := by decide
  have hvalues : '\n' ∉ Text.join ", " c.values :=
    fun h => absurd (all_values hp _ h) (by decide)
  unfold executeArguments
  dsimp only
  split
  · exact Module.newline_not_mem_quote _
  · simp only [List.mem_append, Module.newline_not_mem_quote, hopen, hvalues, hclose, or_self,
      not_false_eq_true]

theorem registers_body {c : WrapperCode} (hp : ∀ p ∈ c.params, Name.IsProper p.value.identifier)
    (hf : ∀ name ∈ c.fetch.classNames, Name.IsProper name) : Code.Registers c.body [] := by
  have hopen : Code.Registers (Module.indent ++ "async with conn.cursor() as cur:\n") [] :=
    Code.registers_lines (by decide) (by decide)
  have hstart : '\n' ∉ Fetch.margin ++ "await cur.execute(".toList := by decide
  have hclose : '\n' ∉ ")".toList := by decide
  have hend : ")\n".toList = ")".toList ++ ['\n'] := by decide
  have hline : '\n' ∉ Fetch.margin ++ "await cur.execute(".toList ++ c.executeArguments ++
      ")".toList :=
    List.not_mem_append (List.not_mem_append hstart (newline_not_mem_executeArguments hp)) hclose
  have hexecute := Code.registers_indented rfl hline
  have hr := (hopen.append hexecute).append (Fetch.registers_render hf)
  unfold body
  rw [hend]
  simpa only [List.append_assoc, List.nil_append] using hr

end WrapperCode

namespace Block

/-- The enums that a block registers, as they are written, with their classes. -/
def registered : Block → List (Text × Text)
  | .registrations calls => calls.flatMap RegistrationCall.registered
  | _ => []

end Block

namespace Binding

variable {s : Schema} {plans : List (Plan × List Diagnostic)} {records : List RecordClass}

theorem hasPairs_statements (h : (assemble s plans).orderedRecords = .ok records)
    {options : Options} {block : Block}
    (hb : block ∈ (assemble s plans).blocks options records) :
    Code.HasPairs block.statements (block.descriptors.flatMap Descriptor.tags) ∧
      Code.registrations block.statements = block.registered := by
  have hproper := namesProper_assemble s plans
  have hc : ∀ className ∈ block.uses, Name.IsProper className := fun className hn =>
    hproper.classes className (classNamesInUse_of_defined h (uses_blocks h hb hn))
  cases block with
  | wrapper code =>
    obtain ⟨w, hw, rfl⟩ := List.mem_map.mp (wrapper_mem_blocks.mp hb)
    have hparams : ∀ p ∈ (WrapperCode.ofWrapper (assemble s plans).enums w).params,
        Name.IsProper p.value.identifier :=
      WrapperCode.isProper_identifiers (hproper.parameters w hw)
    have hfetch := fun name hn => hc name (List.mem_append_right _ hn)
    exact ⟨WrapperCode.hasPairs_body hparams hfetch,
      (WrapperCode.registers_body hparams hfetch).registrations_eq⟩
  | registrations calls =>
    have hcall {c : RegistrationCall} (hm : c ∈ calls) :
        ∀ name ∈ c.classNames, Name.IsProper name :=
      fun name hn => hc name (List.mem_flatMap.mpr ⟨c, hm, hn⟩)
    constructor
    · have hr := Code.hasPairs_flatMap fun c hm => RegistrationCall.hasPairs_render (hcall hm)
      rwa [← List.flatMap_assoc] at hr
    · exact (Code.registers_flatMap fun c hm =>
        RegistrationCall.registers_render (hcall hm)).registrations_eq
  | _ => exact ⟨Code.hasPairs_nil, rfl⟩

end Binding

end Bindery
