import Bindery.Binding.Build
import Bindery.GenerateError
import Bindery.Module.Block
import Bindery.Options
import Bindery.Order

namespace Bindery

namespace Binding

def classNamesInUse (b : Binding) : List Text :=
  b.enums.map EnumClass.className ++ b.records.map RecordClass.className

/-- Refuses a wrapper with the name of a class. -/
def checkShadowing (b : Binding) : Except GenerateError Unit :=
  match b.wrappers.find? fun w => b.classNamesInUse.contains w.identifier with
  | some w => .error (.shadowed w.identifier w.callName)
  | none => .ok ()

/-- The record classes in an order in which each comes after those it refers to. -/
def orderedRecords (b : Binding) : Except GenerateError (List RecordClass) :=
  match Order.sort (b.records.map fun r => ⟨r.className, r.references⟩) with
  | .ok order => .ok (order.filterMap (b.records[·]?))
  | .error names => .error (.cycle names)

def wrapperCodes (b : Binding) : List WrapperCode :=
  b.wrappers.map (WrapperCode.ofWrapper b.enums)

/-- The number of wrappers that call support code. -/
def supportUsers (b : Binding) : Nat :=
  (b.wrapperCodes.filter WrapperCode.usesSupport).length

def exports (b : Binding) : List Text :=
  Text.sortedSet (b.classNamesInUse ++ b.wrappers.map Wrapper.identifier)

/-- The support code and the registrations, for record classes in the given order. -/
def supportBlocks (b : Binding) (records : List RecordClass) : List Block :=
  let calls := b.registrationCalls records
  b.supportSections.map .support ++ if calls.isEmpty then [] else [.registrations calls]

def blocks (b : Binding) (options : Options) (records : List RecordClass) : List Block :=
  b.enumsByName.map .enumClass ++ records.map .recordClass ++
    (if options.omitSupport then [] else b.supportBlocks records) ++
    b.wrapperCodes.map .wrapper ++ [.manifest b.exports]

/-- What is reported when support code that is called has been left out. -/
def omissionNotices (b : Binding) (options : Options) : List Diagnostic :=
  if options.omitSupport && b.supportUsers > 0 then [.supportOmitted b.supportUsers] else []

end Binding

/-- A module: where it came from, what it imports, and its blocks. -/
structure Module where
  sourceName : Option Text
  imports : Imports
  blocks : List Block
  deriving Repr

namespace Module

def header (m : Module) : Text :=
  let origin : Text := (m.sourceName.map fun name => (" from " : Text) ++ name).getD []
  let imports : Text := if m.imports.isEmpty then [] else m.imports.render ++ "\n\n"
  "# -*- coding: utf-8 -*-\n# Auto-generated by sqlbind" ++ origin ++ ". Do not edit.\n\n" ++
    imports ++ "from psycopg import AsyncConnection"

/-- A block without the line ends behind it. -/
def trimNewlines (t : Text) : Text :=
  (t.reverse.dropWhile (· == '\n')).reverse

/-- The text of the module, with two blank lines between the blocks. -/
def render (m : Module) : Text :=
  let body : Text := m.blocks.flatMap fun block => "\n\n\n" ++ trimNewlines block.render
  m.header ++ body ++ "\n"

end Module

/-- A generated module, and all that was reported on the way. -/
structure Generated where
  source : Module
  diagnostics : List Diagnostic
  deriving Repr

def Generated.code (g : Generated) : Text :=
  g.source.render

namespace Binding

def generate (b : Binding) (options : Options) : Except GenerateError Generated := do
  b.checkShadowing
  let records ← b.orderedRecords
  let blocks := b.blocks options records
  return ⟨⟨options.sourceName, Imports.concat (blocks.map Block.imports), blocks⟩,
    b.diagnostics ++ b.omissionNotices options⟩

end Binding

/-- Generates a module from a text with functions and a text with shared types. -/
def generate (functions : Text) (shared : Option Text) (options : Options) :
    Except GenerateError Generated := do
  let schema ← (Schema.parse functions shared).mapError .parse
  let binding ← (Binding.build schema options.strict).mapError .schema
  binding.generate options

end Bindery
