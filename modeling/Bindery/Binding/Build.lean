import Bindery.Binding.Plan
import Bindery.Binding.Resolve
import Bindery.Name.Grant

namespace Bindery

/-- The names of the module that functions must leave alone. -/
def reservedFunctions : List Text :=
  ["dataclass", "date", "datetime", "fields", "get_optional", "get_required", "json", "time",
    "timedelta", "_build_record", "_convert_scalar", "_decode_enum", "_decode_record",
    "_decode_row", "_decode_value", "_encode_json", "_finish_item", "_parse_array",
    "_parse_composite", "_register_enum", "_register_record", "_split_delimited"].map
    String.toList

/-- The imported names that classes must leave alone. -/
def reservedClasses : List Text :=
  ["Any", "AsyncConnection", "Decimal", "Dict", "Enum", "List", "Optional", "Sequence", "Tuple",
    "Type", "TypeVar", "UUID", "Union"].map String.toList

/-- The names that a wrapper binds itself. -/
def reservedParameters : List Text :=
  ["conn", "cur"]

/-- A value with the notices that came up when it was built. -/
structure Noted (α : Type) where
  value : α
  notices : List Diagnostic

namespace Noted

def all {α : Type} (parts : List (Noted α)) : Noted (List α) :=
  ⟨parts.map value, parts.flatMap notices⟩

end Noted

namespace Grant

def notices (grants : List Grant) : List Diagnostic :=
  grants.filterMap collision

end Grant

namespace Binding

/-- The wish for the identifier of a function; on a clash the schema goes in front. -/
def functionRequest (f : Signature) : Request :=
  let base := Name.function f.name
  let alternative := (Text.splitLast? '.' f.name).map fun (schema, _) =>
    Name.identifier (schema ++ "_" ++ base) "func"
  ⟨base, alternative, "function " ++ f.name⟩

def functionGrants (functions : List Signature) : List Grant :=
  Grant.answerAll "_" reservedFunctions (functions.map functionRequest)

def enumRequest (e : EnumType) : Request :=
  ⟨Name.enumClass e.name, none, "enum " ++ e.name⟩

def tableRequest (t : Table) : Request :=
  ⟨Name.recordClass t.name, none, "table " ++ t.name⟩

def compositeRequest (c : Composite) : Request :=
  ⟨Name.recordClass c.name, none, "type " ++ c.name⟩

/-- The wish for a class of its own that a function with described rows has. -/
def resultRequest? (f : Signature) (identifier : Text) : Plan → Option Request
  | .explicit _ => some ⟨Name.resultClass identifier, none, "result of function " ++ f.name⟩
  | _ => none

def tableRequests (tables : List Table) (reachable : List Nat) : List (Option Request) :=
  tables.zipIdx.map fun (t, i) => if reachable.contains i then some (tableRequest t) else none

/-- The classes of all enums, tables, composite types and results, in this order. -/
def classGrants (s : Schema) (identifiers : List Text) (plans : List Plan) : List (Option Grant) :=
  Grant.answerEach "" reservedClasses <|
    s.catalog.enums.entries.map (some ∘ enumRequest) ++
    tableRequests s.catalog.tables.entries (s.reachableTables plans) ++
    s.catalog.composites.entries.map (some ∘ compositeRequest) ++
    ((s.functions.zip identifiers).zip plans).map fun ((f, identifier), plan) =>
      resultRequest? f identifier plan

def classNames (c : Catalog) (grants : List (Option Grant)) : ClassNames :=
  let enums := c.enums.entries
  let tables := c.tables.entries
  let composites := c.composites.entries
  let afterEnums := grants.drop enums.length
  let afterTables := afterEnums.drop tables.length
  { enums := (enums.zip grants).filterMap fun (e, grant) =>
      grant.map fun grant => ⟨normalizeKey e.name, grant.name⟩
    tables := (afterEnums.take tables.length).map fun grant => grant.map Grant.name
    composites := (afterTables.take composites.length).filterMap fun grant =>
      grant.map Grant.name }

def resultClasses (c : Catalog) (grants : List (Option Grant)) : List (Option Text) :=
  (grants.drop (c.enums.entries.length + c.tables.entries.length +
    c.composites.entries.length)).map fun grant => grant.map Grant.name

def enumClass (e : EnumType) (ref : EnumRef) : Noted EnumClass :=
  let grants := Grant.answerAll "_" [] <| e.labels.map fun label =>
    ⟨Name.member label, none, "label '" ++ label ++ "' of enum " ++ e.name⟩
  let members := (grants.zip e.labels).map fun (grant, label) => ⟨grant.name, label⟩
  ⟨⟨ref.sqlName, ref.className, members⟩, Grant.notices grants⟩

def columnSubject (owner : Text) (c : Column) : Text :=
  "column " ++ c.name ++ " of " ++ owner

def fields (names : ClassNames) (catalog : Catalog) (owner : Text) (columns : List Column) :
    Noted (List Field) :=
  let grants := Grant.answerAll "_" [] <| columns.map fun c =>
    ⟨Name.field c.name, none, columnSubject owner c⟩
  Noted.all <| (columns.zip grants).map fun (c, grant) =>
    let type := names.resolve catalog c.sqlType
    ⟨⟨c.name, grant.name, c.sqlType, type, c.nullable, c.hasMeaningfulDefault⟩,
      grant.collision.toList ++ type.notices (columnSubject owner c)⟩

def recordClass (names : ClassNames) (catalog : Catalog) (owner sqlName : Text)
    (origin : RecordOrigin) (columns : List Column) (className : Text) : Noted RecordClass :=
  let bound := fields names catalog owner columns
  ⟨⟨className, sqlName, origin, bound.value⟩, bound.notices⟩

def tableClasses (names : ClassNames) (catalog : Catalog) : List (Noted RecordClass) :=
  (catalog.tables.entries.zip names.tables).filterMap fun (t, className) =>
    className.map (recordClass names catalog ("table " ++ t.name) t.name .table t.columns)

def compositeClasses (names : ClassNames) (catalog : Catalog) : List (Noted RecordClass) :=
  (catalog.composites.entries.zip names.composites).map fun (c, className) =>
    recordClass names catalog ("type " ++ c.name) c.name .composite c.fields className

/-- The identifier that a parameter asks for; one without a name is numbered. -/
def wantedParameter (p : Parameter) (index : Nat) : Text :=
  match p.name with
  | some name =>
    let identifier := Name.parameter name
    if reservedParameters.contains identifier then identifier ++ "_" else identifier
  | none => "arg" ++ Text.ofNat (index + 1)

def parameterSubject (f : Signature) (p : Parameter) (index : Nat) : Text :=
  "parameter " ++ p.name.getD ("$" ++ Text.ofNat (index + 1)) ++ " of function " ++ f.name

def arguments (names : ClassNames) (catalog : Catalog) (f : Signature) : Noted (List Argument) :=
  let inputs := f.inputs.zipIdx
  let grants := Grant.answerAll "_" [] <| inputs.map fun (p, i) =>
    ⟨wantedParameter p i, none, parameterSubject f p i⟩
  Noted.all <| (inputs.zip grants).map fun ((p, i), grant) =>
    let type := names.resolve catalog p.sqlType
    ⟨⟨p.name, grant.name, p.sqlType, type, p.isOptional, p.hasSqlDefault, p.default,
        p.mode == .variadic⟩,
      grant.collision.toList ++ type.notices (parameterSubject f p i)⟩

/-- The result of a wrapper, and the record class that it brings along. -/
def result (names : ClassNames) (catalog : Catalog) (f : Signature) (resultClass : Option Text) :
    Plan → Noted (ResultShape × Option RecordClass)
  | .void => ⟨(.void, none), []⟩
  | .value raw =>
    let type := names.resolve catalog raw
    ⟨(.value type, none), type.notices ("return type of function " ++ f.name)⟩
  | .record raw =>
    ⟨(((names.recordClass? catalog raw).map .record).getD .rows, none), []⟩
  | .explicit columns =>
    match resultClass with
    | some className =>
      let bound := recordClass names catalog ("result of function " ++ f.name) f.callName .result
        columns className
      ⟨(.record className, some bound.value), bound.notices⟩
    | none => ⟨(.rows, none), []⟩
  | .rows => ⟨(.rows, none), []⟩

/-- A wrapper, and the record class of its result if it has one of its own. -/
def wrapper (names : ClassNames) (catalog : Catalog) (f : Signature) (identifier : Text)
    (plan : Plan) (resultClass : Option Text) : Noted (Wrapper × Option RecordClass) :=
  let params := arguments names catalog f
  let shape := result names catalog f resultClass plan
  ⟨(⟨f.callName, f.name, identifier, f.doc, params.value, f.returns, shape.value.1⟩,
    shape.value.2), params.notices ++ shape.notices⟩

/-- Builds the binding when the results of the functions are planned. -/
def assemble (s : Schema) (plans : List (Plan × List Diagnostic)) : Binding :=
  let catalog := s.catalog
  let functionGrants := functionGrants s.functions
  let identifiers := functionGrants.map Grant.name
  let shapes := plans.map Prod.fst
  let classGrants := classGrants s identifiers shapes
  let names := classNames catalog classGrants
  let enums := Noted.all <| (catalog.enums.entries.zip names.enums).map fun (e, ref) =>
    enumClass e ref
  let tables := Noted.all (tableClasses names catalog)
  let composites := Noted.all (compositeClasses names catalog)
  let wrappers := Noted.all <|
    (((s.functions.zip identifiers).zip shapes).zip (resultClasses catalog classGrants)).map
      fun (((f, identifier), plan), resultClass) =>
        wrapper names catalog f identifier plan resultClass
  { enums := enums.value
    records := tables.value ++ composites.value ++ wrappers.value.filterMap Prod.snd
    wrappers := wrappers.value.map Prod.fst
    diagnostics := s.diagnostics ++ Grant.notices functionGrants ++ plans.flatMap Prod.snd ++
      Grant.notices (classGrants.filterMap id) ++ enums.notices ++ tables.notices ++
      composites.notices ++ wrappers.notices }

/-- Builds the binding of a schema; a strict reading refuses rows of undeclared types. -/
def build (s : Schema) (strict : Bool) : Except SchemaError Binding := do
  let plans ← s.functions.mapM (Plan.ofSignature s.catalog strict)
  return assemble s plans

end Binding

end Bindery
