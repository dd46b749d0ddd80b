import Bindery.Proofs.Binding.ProperNames
import Bindery.Proofs.Module.Imported
import Bindery.Proofs.Module.DefinitionOrder

namespace Bindery

namespace Code

theorem definedBy?_async {name : Text} (h : Name.IsPlain name) (rest : Text) :
    definedBy? ("async def ".toList ++ name ++ '(' :: rest) = some name := by
  have hdef : "def ".toList = ['d', 'e', 'f', ' '] := by decide
  have hasync : "async def ".toList = ['a', 's', 'y', 'n', 'c', ' ', 'd', 'e', 'f', ' '] := by
    decide
  have hname : (name ++ '(' :: rest).takeWhile Name.isIdentifierChar = name := by
    rw [List.takeWhile_append_of_pos h, List.takeWhile_cons_of_neg (by decide), List.append_nil]
  simp [definedBy?, hdef, hasync, Text.dropFront?, hname]

end Code

theorem WrapperCode.definedBy?_render {c : WrapperCode} (h : Name.IsPlain c.identifier) :
    Code.definedBy? c.render = some c.identifier := by
  obtain ⟨rest, hr⟩ : ∃ rest, c.signature = "async def ".toList ++ c.identifier ++ '(' :: rest := by
    have hparen : "(".toList = ['('] := by decide
    unfold signature
    dsimp only
    rw [hparen]
    split <;> simp only [List.append_assoc, List.singleton_append] <;> exact ⟨_, rfl⟩
  unfold render
  dsimp only
  simp only [hr, List.append_assoc]
  rw [← List.append_assoc "async def ".toList, List.cons_append]
  exact Code.definedBy?_async h _

namespace Block

/-- The names that a section of support code defines at the top level. -/
def supportNames : Block → List Text
  | .support part => Code.topLevel part.render
  | _ => []

def functionName? : Block → Option Text
  | .wrapper c => Code.definedBy? c.render
  | _ => none

theorem functionName?_ofWrapper (enums : List EnumClass) {w : Wrapper}
    (h : Name.IsPlain w.identifier) :
    (wrapper (WrapperCode.ofWrapper enums w)).functionName? = some w.identifier :=
  WrapperCode.definedBy?_render (c := WrapperCode.ofWrapper enums w) h

end Block

namespace Module

def functionNames (m : Module) : List Text :=
  m.blocks.filterMap Block.functionName?

/-- The names that a module relies on: what it imports and what its support code defines. -/
def reliedOn (m : Module) : List Text :=
  "AsyncConnection".toList :: (m.imports.modules ++ m.imports.names.map Prod.snd) ++
    m.blocks.flatMap Block.supportNames

end Module

/-- The variables and classes of the support code that functions do not leave alone. -/
def unreservedSupport : List Text :=
  ["_T", "_ENUM_REGISTRY", "_RECORD_REGISTRY", "_DatabaseJSONEncoder"].map String.toList

theorem Code.reserved_importedNames :
    Code.importedNames.all fun p => (reservedFunctions ++ reservedClasses).contains p.2 := by
  decide

theorem SupportSection.reserved_names (part : SupportSection) :
    part.names.all fun name => (reservedFunctions ++ unreservedSupport).contains name.toList := by
  cases part with
  | convertScalar converters =>
    have hc : reservedFunctions.contains "_convert_scalar".toList = true := by decide
    simp only [names, List.all_cons, List.all_nil, List.contains_append, hc, Bool.true_or,
      Bool.and_true]
  | _ => decide

theorem Module.reserved_reliedOn {m : Module} (hk : m.imports.isKnown = true) {name : Text}
    (h : name ∈ m.reliedOn) :
    name ∈ reservedFunctions ∨ name ∈ reservedClasses ++ unreservedSupport := by
  rw [Imports.isKnown, Bool.and_eq_true, List.all_eq_true, List.all_eq_true] at hk
  rw [reliedOn, List.mem_append, List.mem_cons, List.mem_append] at h
  rcases h with (rfl | hm | hn) | hs
  · exact .inr (by decide)
  · have hj : name = "json".toList := by simpa using hk.1 name hm
    rw [hj]
    exact .inl (by decide)
  · obtain ⟨p, hp, rfl⟩ := List.mem_map.mp hn
    have hi := List.all_eq_true.mp Code.reserved_importedNames p
      (List.contains_iff_mem.mp (hk.2 p hp))
    rw [List.contains_iff_mem, List.mem_append] at hi
    exact hi.imp_right (List.mem_append_left _)
  · obtain ⟨block, -, hb⟩ := List.mem_flatMap.mp hs
    cases block with
    | support part =>
      rw [Block.supportNames, part.topLevel_render] at hb
      obtain ⟨name, hp, rfl⟩ := List.mem_map.mp hb
      have hi := List.all_eq_true.mp part.reserved_names name hp
      rw [List.contains_iff_mem, List.mem_append] at hi
      exact hi.imp_right (List.mem_append_right _)
    | _ => cases hb

theorem free_unreserved {name : Text} (h : name ∈ reservedClasses ++ unreservedSupport) :
    name ∉ reservedFunctions ∧ Grant.isNumbered name = false := by
  have hall : (reservedClasses ++ unreservedSupport).all fun name =>
      !reservedFunctions.contains name && !Grant.isNumbered name := by decide
  simpa using List.all_eq_true.mp hall name h

namespace Binding

variable {s : Schema} {plans : List (Plan × List Diagnostic)}

/-- A name that is free and not numbered goes to a function exactly if a function asks for it. -/
theorem mem_functionGrants_iff {functions : List Signature} {name : Text}
    (hr : name ∉ reservedFunctions) (hn : Grant.isNumbered name = false) :
    name ∈ (functionGrants functions).map Grant.name ↔
      ∃ front f back, functions = front ++ f :: back ∧
        (functionRequest f).AsksFor
          (reservedFunctions ++ (functionGrants front).map Grant.name) name := by
  rw [functionGrants, Grant.mem_names_answerAll_iff hr hn]
  constructor
  · rintro ⟨_, _, _, he, ha⟩
    obtain ⟨front, tail, hf, rfl, ht⟩ := List.map_eq_append_iff.mp he
    obtain ⟨f, back, rfl, rfl, rfl⟩ := List.map_eq_cons_iff.mp ht
    exact ⟨front, f, back, hf, ha⟩
  · rintro ⟨front, f, back, hf, ha⟩
    refine ⟨front.map functionRequest, functionRequest f, back.map functionRequest, ?_, ha⟩
    rw [hf, List.map_append, List.map_cons]

theorem mem_functionNames {m : Module} {options : Options} {records : List RecordClass}
    (hm : m.blocks = (assemble s plans).blocks options records)
    (hl : (plans.map Prod.fst).length = s.functions.length) (name : Text) :
    name ∈ m.functionNames ↔ name ∈ (functionGrants s.functions).map Grant.name := by
  have hproper := (namesProper_assemble s plans).functions
  rw [← identifiers_assemble hl, Module.functionNames, hm, List.mem_filterMap, List.mem_map]
  constructor
  · rintro ⟨block, hb, hn⟩
    cases block with
    | wrapper code =>
      obtain ⟨w, hw, rfl⟩ := List.mem_map.mp (wrapper_mem_blocks.mp hb)
      rw [Block.functionName?_ofWrapper _ (hproper w hw).plain] at hn
      exact ⟨w, hw, Option.some.inj hn⟩
    | _ => cases hn
  · rintro ⟨w, hw, rfl⟩
    refine ⟨_, wrapper_mem_blocks.mpr (List.mem_map_of_mem hw), ?_⟩
    exact Block.functionName?_ofWrapper _ (hproper w hw).plain

end Binding

/--
What functions leave alone. A name that a generated module relies on is reserved, and then no
function of the module has it; or it is not, and then a function of the module has it exactly if
some function asks for it: by its own name, or with its schema in front if its own name is gone.
-/
theorem generate_rebinds_iff {functions : Text} {shared : Option Text} {options : Options}
    {g : Generated} (h : generate functions shared options = .ok g) {name : Text}
    (hn : name ∈ g.source.reliedOn) :
    (name ∈ reservedFunctions ∧ name ∉ g.source.functionNames) ∨
      (name ∈ reservedClasses ++ unreservedSupport ∧
        ∃ s, Schema.parse functions shared = .ok s ∧
          (name ∈ g.source.functionNames ↔ ∃ front f back, s.functions = front ++ f :: back ∧
            (Binding.functionRequest f).AsksFor
              (reservedFunctions ++ (Binding.functionGrants front).map Grant.name) name)) := by
  obtain ⟨s, b, hs, hb, hg⟩ := generate_eq_ok h
  obtain ⟨plans, hp, rfl⟩ := Binding.exists_plans hb
  have hl := Binding.length_plans hp
  obtain ⟨-, records, -, he⟩ := Binding.exists_generated hg
  have hk : g.source.imports.isKnown = true := by
    rw [he]
    exact Block.isKnown_concat _
  have hf := Binding.mem_functionNames (congrArg (fun g => g.source.blocks) he) hl name
  rcases Module.reserved_reliedOn hk hn with hr | hr
  · refine .inl ⟨hr, fun hmem => ?_⟩
    exact (Apart.answerAll "_" reservedFunctions _).2 name (hf.mp hmem) hr
  · obtain ⟨hfree, hnumbered⟩ := free_unreserved hr
    exact .inr ⟨hr, s, hs, hf.trans (Binding.mem_functionGrants_iff hfree hnumbered)⟩

/-- Two functions of one name, of which the second falls back on a variable of the support code. -/
def registrySource : Text :=
  "CREATE TYPE mood AS ENUM ('ok');\nCREATE FUNCTION REGISTRY() RETURNS mood;
CREATE FUNCTION _ENUM.REGISTRY() RETURNS mood"

def registrySignature (name : Text) (line : Nat) : Signature :=
  ⟨name, name, none, [], ⟨.enum "mood", false⟩, ⟨line, 1⟩⟩

def registrySchema : Schema where
  catalog := { enums := ⟨[⟨"mood", ["ok".toList]⟩], [("mood", 0)]⟩ }
  functions := [registrySignature "REGISTRY" 2, registrySignature "_ENUM.REGISTRY" 3]

def registryWrapper (name identifier : Text) : Wrapper :=
  ⟨name, name, identifier, none, [], ⟨.enum "mood", false⟩, .value (.enum ⟨"mood", "Mood"⟩)⟩

def registryBinding : Binding where
  enums := [⟨"mood", "Mood", [⟨"OK", "ok"⟩]⟩]
  wrappers := [registryWrapper "REGISTRY" "REGISTRY",
    registryWrapper "_ENUM.REGISTRY" "_ENUM_REGISTRY"]
  diagnostics := [.nameCollision "REGISTRY" "_ENUM_REGISTRY" "function _ENUM.REGISTRY"]

theorem generate_rebinds_iff_of_registry :
    ∃ g, generate registrySource none {} = .ok g ∧ "_ENUM_REGISTRY".toList ∈ g.source.reliedOn ∧
      "_ENUM_REGISTRY".toList ∈ g.source.functionNames := by
  have hs : Schema.parse registrySource none = .ok registrySchema := by
    set_option maxRecDepth 1000 in
    rw [show registrySource = _ from String.toList_ofList]
    decide +kernel
  have hb : Binding.build registrySchema (Options.strict {}) = .ok registryBinding := by
    decide +kernel
  have hc : registryBinding.checkShadowing = .ok () := by decide
  have hr : registryBinding.orderedRecords = .ok [] := by cbv
  have hpart : SupportSection.registries ∈ registryBinding.supportSections := by decide
  obtain ⟨g, hg, hblock⟩ : ∃ g, generate registrySource none {} = .ok g ∧
      .support .registries ∈ g.source.blocks := by
    refine ⟨_, (generate_of_build hs hb).trans (Binding.generate_of_ordered hc hr {}), ?_⟩
    refine List.mem_append_left _ (List.mem_append_left _ (List.mem_append_right _ ?_))
    exact List.mem_append_left _ (List.mem_map_of_mem hpart)
  have hn : "_ENUM_REGISTRY".toList ∈ g.source.reliedOn := by
    refine List.mem_append_right _ (List.mem_flatMap.mpr ⟨_, hblock, ?_⟩)
    rw [Block.supportNames, SupportSection.topLevel_render]
    exact List.mem_cons_self
  refine ⟨g, hg, hn, ?_⟩
  rcases generate_rebinds_iff hg hn with ⟨hreserved, -⟩ | ⟨-, s, hparse, hiff⟩
  · exact absurd hreserved (by decide)
  · cases hs.symm.trans hparse
    refine hiff.mpr ⟨[registrySignature "REGISTRY" 2], registrySignature "_ENUM.REGISTRY" 3, [],
      rfl, .inr ⟨?_, ?_⟩⟩
    · decide
    · decide

/-- A function with the name of an imported class, and another one behind it. -/
def optionalSource : Text :=
  "CREATE FUNCTION Optional() RETURNS int;\nCREATE FUNCTION total() RETURNS int"

def countSignature (name : Text) (line : Nat) : Signature :=
  ⟨name, name, none, [], ⟨.scalar "int", false⟩, ⟨line, 1⟩⟩

def countWrapper (name : Text) : Wrapper :=
  ⟨name, name, name, none, [], ⟨.scalar "int", false⟩, .value (.scalar .integer)⟩

def optionalSchema : Schema where
  functions := [countSignature "Optional" 1, countSignature "total" 2]

def optionalBinding : Binding where
  wrappers := [countWrapper "Optional", countWrapper "total"]

/-- The second function has `Optional` in its hint, which is the first one by then. -/
theorem optional_rebound :
    ∃ g, generate optionalSource none { omitSupport := true } = .ok g ∧
      "Optional".toList ∈ g.source.reliedOn ∧ "Optional".toList ∈ g.source.functionNames := by
  have hs : Schema.parse optionalSource none = .ok optionalSchema := by
    set_option maxRecDepth 1000 in
    rw [show optionalSource = _ from String.toList_ofList]
    decide +kernel
  have hb : Binding.build optionalSchema (Options.strict { omitSupport := true }) =
      .ok optionalBinding := by decide +kernel
  have hc : optionalBinding.checkShadowing = .ok () := by decide
  have hr : optionalBinding.orderedRecords = .ok [] := by cbv
  have hg := (generate_of_build hs hb).trans (Binding.generate_of_ordered hc hr _)
  refine ⟨_, hg, ?_, ?_⟩
  · refine List.mem_append_left _ (List.mem_cons_of_mem _ (List.mem_append_right _ ?_))
    decide +kernel
  · have hw : countWrapper "Optional" ∈ optionalBinding.wrappers := List.mem_cons_self
    have hp : Name.IsPlain (countWrapper "Optional").identifier := Name.isPlain_of_all (by decide)
    refine List.mem_filterMap.mpr ⟨_, Binding.wrapper_mem_blocks.mpr (List.mem_map_of_mem hw), ?_⟩
    exact Block.functionName?_ofWrapper _ hp

end Bindery
