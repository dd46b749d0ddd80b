import Bindery.Proofs.Code.Standard
import Bindery.Proofs.Module.Mentions
import Bindery.Proofs.Text.Lines

namespace Bindery

open Code (Mention words call Reads Ends Joins)

namespace Code

/-- The name that an unindented line defines: a function, a class or a variable. -/
def definedBy? (line : Text) : Option Text :=
  match ["def ", "async def ", "class "].findSome? fun key => Text.dropFront? key.toList line with
  | some rest => some (rest.takeWhile Name.isIdentifierChar)
  | none =>
    let name := line.takeWhile Name.isIdentifierChar
    let rest := line.drop name.length
    if !name.isEmpty && (" = ".toList.isPrefixOf rest || ": ".toList.isPrefixOf rest) then some name
    else none

/-- The names that a text defines at the top level, in order. -/
def topLevel (t : Text) : List Text :=
  (Text.lines t).filterMap definedBy?

theorem topLevel_append {a : Text} (b : Text) (h : a.getLast? = some '\n') :
    topLevel (a ++ b) = topLevel a ++ topLevel b := by
  rw [topLevel, Text.lines_append b h, List.filterMap_append, topLevel, topLevel]

/-- The literal that a line of the conversion function compares the name with. -/
def branchTest? (line : Text) : Option Text :=
  (Text.dropFront? "    if name == " line).bind (Text.dropBack? ":")

/-- The tests among lines, each with the line behind it. -/
def branchesOf : List Text → List (Text × Text)
  | test :: statement :: rest =>
    match branchTest? test with
    | some literal => (literal, statement) :: branchesOf rest
    | none => branchesOf (statement :: rest)
  | _ => []

/-- The names that a text tests for, as they are written, each with the line for it. -/
def branches (t : Text) : List (Text × Text) :=
  branchesOf (Text.lines t)

theorem branchesOf_append {front : List Text} (h : ∀ line ∈ front, branchTest? line = none)
    (rest : List Text) : branchesOf (front ++ rest) = branchesOf rest := by
  have hskip {line : Text} (hl : branchTest? line = none) (rest : List Text) :
      branchesOf (line :: rest) = branchesOf rest := by
    cases rest with
    | nil => rfl
    | cons next rest => rw [branchesOf, hl]
  induction front with
  | nil => rfl
  | cons line front ih =>
    obtain ⟨hl, hf⟩ := List.forall_mem_cons.mp h
    exact (hskip hl _).trans (ih hf)

end Code

namespace Imports

def binds (i : Imports) (name : Text) : Bool :=
  i.modules.contains name || i.names.any fun p => p.2 == name

theorem binds_append (i j : Imports) (name : Text) :
    (i ++ j).binds name = (i.binds name || j.binds name) := by
  change ((i.modules ++ j.modules).contains name ||
    (i.names ++ j.names).any fun p => p.2 == name) = _
  rw [List.contains_append, List.any_append, binds, binds]
  ac_rfl

theorem binds_concat {parts : List Imports} {i : Imports} {name : Text} (hi : i ∈ parts)
    (h : i.binds name = true) : (concat parts).binds name = true := by
  induction parts with
  | nil => cases hi
  | cons first rest ih =>
    change (first ++ concat rest).binds name = true
    rw [binds_append, Bool.or_eq_true]
    rcases List.mem_cons.mp hi with rfl | hi
    · exact .inl h
    · exact .inr (ih hi)

end Imports

namespace Code

/-- What a text mentions of other modules is imported, unless a loop binds it. -/
def suppliedBy (standard : List Text) (i : Imports) (mentions : List Mention) : Bool :=
  mentions.all fun m =>
    !standard.contains m.name || i.binds m.name || (loopNames mentions).contains m.name

/-- A text defines the given names at the top level and mentions only what is imported. -/
def accounts (standard names : List Text) (i : Imports) (t : Text) : Bool :=
  topLevel t == names && (read? t).any (suppliedBy standard i)

end Code

namespace Converter

def mentions : Converter → List Mention
  | .decimal => [call "Decimal"] ++ words ["value"]
  | .uuid => [call "UUID"] ++ words ["value"]
  | .bool => words ["value", "in"]
  | .bytes => words ["bytes", "value", "if", "value", "else", "value"]
  | .date => words ["date", "value"]
  | .datetime => words ["datetime", "value"]
  | .float => [call "float"] ++ words ["value"]
  | .int => [call "int"] ++ words ["value"]
  | .json => words ["json", "value", "if", "from_text", "else", "value"]
  | .time => words ["time", "value"]

theorem reads_statement (c : Converter) : Reads c.statement (words ["return"] ++ c.mentions) := by
  cases c <;> decide +kernel

def branchMentions (c : Converter) : List Mention :=
  words ["if", "name"] ++ (words ["return"] ++ c.mentions)

theorem ends_branch (c : Converter) : Ends c.branch c.branchMentions := by
  have hopen : Ends "    if name == ".toList (words ["if", "name"]) := by decide
  have hcolon : Joins ":\n        ".toList [] := by decide
  have hline : Joins "\n".toList [] := by decide
  have hbody := (Code.reads_quote c.name).joined hcolon c.reads_statement
  have hr := hopen.append (hbody.stopped hline)
  unfold branch branchMentions
  simpa only [List.append_assoc, List.nil_append, List.append_nil] using hr

theorem mentions_supplied (c : Converter) : c.mentions.all (fun m =>
    (Code.plainWords).contains m.name || c.imports.binds m.name) = true := by
  cases c <;> decide

theorem branch_getLast? (c : Converter) : c.branch.getLast? = some '\n' := by
  have hline : "\n".toList = ['\n'] := by decide
  unfold branch
  rw [hline, List.getLast?_concat]

def written (c : Converter) : Text × Text :=
  (Module.quote c.name, Module.indent ++ Module.indent ++ c.statement)

/-- The line of a branch that compares the name. -/
def test (c : Converter) : Text :=
  "    if name == " ++ (Module.quote c.name ++ ":")

theorem branch_eq_lines (c : Converter) :
    c.branch = [c.test, c.written.2].flatMap fun line => line ++ ['\n'] := by
  have hbreak : ":\n        ".toList = ":".toList ++ ['\n'] ++ Module.indent ++ Module.indent := by
    decide
  have hline : "\n".toList = ['\n'] := by decide
  unfold branch test written
  rw [hbreak, hline]
  simp only [List.flatMap_cons, List.flatMap_nil, List.append_assoc, List.append_nil]

theorem no_break_mem_statement (c : Converter) : ∀ d ∈ c.statement, d ≠ '\n' ∧ d ≠ '\r' := by
  have h : (c.statement.all fun d => d != '\n' && d != '\r') = true := by
    cases c
    all_goals exact Text.check_toList (p := fun t => t.all _) _ (by decide)
  simpa using h

theorem lines_branch (c : Converter) : Text.lines c.branch = [c.test, c.written.2] := by
  have hopen : ("    if name == ".toList ++ ":".toList).all (fun d => d != '\n' && d != '\r') =
      true := by decide
  have hindent : (Module.indent ++ Module.indent).all (fun d => d != '\n' && d != '\r') = true := by
    decide
  have hb : ∀ line ∈ [c.test, c.written.2], ∀ d ∈ line, d ≠ '\n' ∧ d ≠ '\r' := by
    unfold test written
    simp only [List.forall_mem_cons, List.forall_mem_append]
    simp only [List.all_append, Bool.and_eq_true, List.all_eq_true, bne_iff_ne] at hopen hindent
    exact ⟨⟨hopen.1, Module.no_break_mem_quote c.name, hopen.2⟩,
      ⟨hindent, c.no_break_mem_statement⟩, List.forall_mem_nil _⟩
  rw [branch_eq_lines]
  apply Text.lines_flatMap
  · exact fun line hl hm => (hb line hl _ hm).1 rfl
  · exact fun line hl => Text.dropReturn_eq fun hm => (hb line hl _ hm).2 rfl

theorem branchTest?_test (c : Converter) : Code.branchTest? c.test = some c.written.1 := by
  unfold test Code.branchTest?
  rw [Text.dropFront?_append, Option.bind_some, Text.dropBack?_append]
  rfl

theorem topLevel_branch (c : Converter) : Code.topLevel c.branch = [] := by
  rw [Code.topLevel, lines_branch]
  rfl

end Converter

namespace SupportSection

/-- The names that a section defines for the rest of the module. -/
def names : SupportSection → List String
  | .resultHelpers => ["_T", "get_optional", "get_required"]
  | .registries =>
    ["_ENUM_REGISTRY", "_RECORD_REGISTRY", "_register_enum", "_register_record", "_decode_enum"]
  | .textParsing => ["_finish_item", "_split_delimited", "_parse_composite", "_parse_array"]
  | .convertScalar _ => ["_convert_scalar"]
  | .decoding => ["_decode_value", "_build_record", "_decode_record", "_decode_row"]
  | .jsonEncoder => ["_DatabaseJSONEncoder", "_encode_json"]

/-- The first line of the conversion function. -/
def opening : Text :=
  "def _convert_scalar(name: str, value: Any, from_text: bool = False) -> Any:\n"

/-- The lines of the conversion function before its branches. -/
def guard : Text :=
  "    if not isinstance(value, str):\n        return value\n"

theorem render_convertScalar (converters : List Converter) :
    (convertScalar converters).render =
      opening ++ guard ++ (converters.flatMap Converter.branch ++ "    return value\n") := by
  unfold render
  exact List.append_assoc ..

/-- The names in the lines of the conversion function before its branches. -/
def openingMentions : List Mention :=
  words ["def"] ++ [call "_convert_scalar"] ++ words ["name", "str", "value", "Any", "from_text",
    "bool", "False", "Any", "if", "not"] ++ [call "isinstance"] ++
    words ["value", "str", "return", "value"]

theorem ends_convertScalar (converters : List Converter) :
    Ends (convertScalar converters).render (openingMentions ++
      (converters.flatMap Converter.branchMentions ++ words ["return", "value"])) := by
  have hopen : Ends (opening ++ guard) openingMentions := by decide +kernel
  have hbranches := Code.ends_flatMap fun c (_ : c ∈ converters) => c.ends_branch
  have hlast : Ends "    return value\n".toList (words ["return", "value"]) := by decide
  rw [render_convertScalar]
  exact hopen.append (hbranches.append hlast)

theorem topLevel_convertScalar (converters : List Converter) :
    Code.topLevel (convertScalar converters).render = ["_convert_scalar".toList] := by
  have hbranches : Code.topLevel (converters.flatMap Converter.branch ++ "    return value\n") =
      [] := by
    induction converters with
    | nil => decide
    | cons c cs ih =>
      rw [List.flatMap_cons, List.append_assoc, Code.topLevel_append _ c.branch_getLast?,
        c.topLevel_branch, ih]
      rfl
  rw [render_convertScalar, Code.topLevel_append _ (by decide), hbranches]
  decide

theorem branches_flatMap (converters : List Converter) (rest : Text) :
    Code.branchesOf (Text.lines (converters.flatMap Converter.branch ++ rest)) =
      converters.map Converter.written ++ Code.branchesOf (Text.lines rest) := by
  induction converters with
  | nil => rfl
  | cons c cs ih =>
    rw [List.flatMap_cons, List.append_assoc, Text.lines_append _ c.branch_getLast?,
      c.lines_branch, List.cons_append, List.cons_append, List.nil_append, Code.branchesOf,
      c.branchTest?_test]
    exact congrArg (c.written :: ·) ih

theorem branches_convertScalar (converters : List Converter) :
    Code.branches (convertScalar converters).render = converters.map Converter.written := by
  have hopen : ∀ line ∈ Text.lines (opening ++ guard), Code.branchTest? line = none := by decide
  have hlast : Code.branchesOf (Text.lines "    return value\n".toList) = [] := by decide
  have hr := branches_flatMap converters "    return value\n".toList
  rw [hlast, List.append_nil] at hr
  rw [render_convertScalar, Code.branches, Text.lines_append _ (by decide),
    Code.branchesOf_append hopen, hr]

theorem accounts_of_lines {part : SupportSection} {strings : List String} {lines : List Text}
    {table : List (Text × List Text)} (hr : part.render = Text.ofLines strings)
    (table_spelled : Code.SpellsTable Code.exports table) (spelled : Text.Spells strings lines)
    (check : Code.accounts (table.flatMap fun e => e.1 :: e.2) (part.names.map String.toList)
      part.imports (lines.flatMap fun line => line ++ ['\n']) = true) :
    Code.accounts Code.standardNames (part.names.map String.toList) part.imports part.render =
      true := by
  rw [hr]
  apply Code.check_exportTable (p := fun table =>
    Code.accounts (table.flatMap fun e => e.1 :: e.2) _ _ _) table_spelled
  exact Text.check_ofLines (p := fun t => Code.accounts _ _ _ t) spelled check

theorem accounts_fixed {part : SupportSection}
    (h : ∀ converters, part ≠ .convertScalar converters) :
    Code.accounts Code.standardNames (part.names.map String.toList) part.imports part.render =
      true := by
  cases part with
  | convertScalar converters => exact absurd rfl (h converters)
  | resultHelpers =>
    apply accounts_of_lines rfl
    case table_spelled => repeat constructor
    case spelled => repeat constructor
    case check => decide +kernel
  | registries =>
    apply accounts_of_lines rfl
    case table_spelled => repeat constructor
    case spelled => repeat constructor
    case check => decide +kernel
  | textParsing =>
    apply accounts_of_lines rfl
    case table_spelled => repeat constructor
    case spelled => repeat constructor
    case check => decide +kernel
  | decoding =>
    apply accounts_of_lines rfl
    case table_spelled => repeat constructor
    case spelled => repeat constructor
    case check => decide +kernel
  | jsonEncoder =>
    apply accounts_of_lines rfl
    case table_spelled => repeat constructor
    case spelled => repeat constructor
    case check => decide +kernel

theorem topLevel_render (part : SupportSection) :
    Code.topLevel part.render = part.names.map String.toList := by
  by_cases h : ∃ converters, part = .convertScalar converters
  · obtain ⟨converters, rfl⟩ := h
    exact topLevel_convertScalar converters
  · have ha := accounts_fixed (not_exists.mp h)
    rw [Code.accounts, Bool.and_eq_true, beq_iff_eq] at ha
    exact ha.1

theorem supplied_convertScalar (converters : List Converter) {m : Mention}
    (h : m ∈ converters.flatMap Converter.branchMentions)
    (hs : m.name ∈ Code.standardNames) :
    (convertScalar converters).imports.binds m.name = true := by
  obtain ⟨c, hc, hm⟩ := List.mem_flatMap.mp h
  have hplain : ∀ m ∈ words ["if", "name"] ++ words ["return"],
      m.name ∈ Code.plainWords := by decide
  rw [Converter.branchMentions, ← List.append_assoc] at hm
  rcases List.mem_append.mp hm with hm | hm
  · exact absurd hs (Code.not_standard (hplain m hm))
  · have hb := List.all_eq_true.mp c.mentions_supplied m hm
    rw [Bool.or_eq_true, List.contains_iff_mem] at hb
    rcases hb with hb | hb
    · exact absurd hs (Code.not_standard hb)
    · change (_ ++ Imports.concat (converters.map Converter.imports)).binds m.name = true
      rw [Imports.binds_append, Bool.or_eq_true]
      exact .inr (Imports.binds_concat (List.mem_map_of_mem hc) hb)

/-- What a section mentions of other modules is imported, unless a loop of the section binds it. -/
theorem supplied_render (part : SupportSection) : ∃ mentions, Reads part.render mentions ∧
    ∀ m ∈ mentions, m.name ∈ Code.standardNames →
      part.imports.binds m.name = true ∨ m.name ∈ Code.loopNames mentions := by
  by_cases h : ∃ converters, part = .convertScalar converters
  · obtain ⟨converters, rfl⟩ := h
    refine ⟨_, (ends_convertScalar converters).reads, fun m hm hs => .inl ?_⟩
    have hany : ∀ name, (Imports.ofNames "typing" ["Any"]).binds name = true →
        (convertScalar converters).imports.binds name = true := by
      intro name hn
      change (_ ++ Imports.concat _).binds name = true
      rw [Imports.binds_append, hn, Bool.true_or]
    have hfixed : ∀ m ∈ openingMentions, m.name ∈ Code.plainWords ∨
        (Imports.ofNames "typing" ["Any"]).binds m.name = true := by decide
    have hlast : ∀ m ∈ words ["return", "value"], m.name ∈ Code.plainWords := by
      decide
    rcases List.mem_append.mp hm with hm | hm
    · rcases hfixed m hm with hp | hp
      · exact absurd hs (Code.not_standard hp)
      · exact hany _ hp
    · rcases List.mem_append.mp hm with hm | hm
      · exact supplied_convertScalar converters hm hs
      · exact absurd hs (Code.not_standard (hlast m hm))
  · have ha := accounts_fixed (not_exists.mp h)
    rw [Code.accounts, Bool.and_eq_true, Option.any_eq_true] at ha
    obtain ⟨-, mentions, hr, hs⟩ := ha
    refine ⟨mentions, hr, fun m hm hm' => ?_⟩
    have hc := List.all_eq_true.mp hs m hm
    simpa [hm', List.contains_iff_mem] using hc

end SupportSection

end Bindery
