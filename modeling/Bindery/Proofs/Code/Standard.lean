import Bindery.Module.Imports
import Bindery.Proofs.Code.Reading

namespace Bindery

namespace Code

def exports : List (String × List String) := [
  ("dataclasses", [
    "dataclass", "field", "Field", "FrozenInstanceError", "InitVar", "KW_ONLY", "MISSING",
    "fields", "asdict", "astuple", "make_dataclass", "replace", "is_dataclass"]),
  ("datetime", [
    "date", "datetime", "time", "timedelta", "timezone", "tzinfo", "MINYEAR", "MAXYEAR", "UTC"]),
  ("decimal", [
    "Decimal", "Context", "DecimalTuple", "DefaultContext", "BasicContext", "ExtendedContext",
    "DecimalException", "Clamped", "InvalidOperation", "DivisionByZero", "Inexact", "Rounded",
    "Subnormal", "Overflow", "Underflow", "FloatOperation", "DivisionImpossible",
    "InvalidContext", "ConversionSyntax", "DivisionUndefined", "ROUND_DOWN", "ROUND_HALF_UP",
    "ROUND_HALF_EVEN", "ROUND_CEILING", "ROUND_FLOOR", "ROUND_UP", "ROUND_HALF_DOWN",
    "ROUND_05UP", "setcontext", "getcontext", "localcontext", "MAX_PREC", "MAX_EMAX",
    "MIN_EMIN", "MIN_ETINY", "HAVE_THREADS", "HAVE_CONTEXTVAR"]),
  ("enum", [
    "EnumType", "EnumMeta", "Enum", "IntEnum", "StrEnum", "Flag", "IntFlag", "ReprEnum", "auto",
    "unique", "property", "verify", "member", "nonmember", "FlagBoundary", "STRICT", "CONFORM",
    "EJECT", "KEEP", "global_flag_repr", "global_enum_repr", "global_str", "global_enum",
    "EnumCheck", "CONTINUOUS", "NAMED_FLAGS", "UNIQUE", "pickle_by_global_name",
    "pickle_by_enum_name"]),
  ("json", [
    "dump", "dumps", "load", "loads", "JSONDecoder", "JSONDecodeError", "JSONEncoder"]),
  ("typing", [
    "Annotated", "Any", "Callable", "ClassVar", "Concatenate", "Final", "ForwardRef", "Generic",
    "Literal", "Optional", "ParamSpec", "Protocol", "Tuple", "Type", "TypeVar", "TypeVarTuple",
    "Union", "AbstractSet", "ByteString", "Container", "ContextManager", "Hashable",
    "ItemsView", "Iterable", "Iterator", "KeysView", "Mapping", "MappingView", "MutableMapping",
    "MutableSequence", "MutableSet", "Sequence", "Sized", "ValuesView", "Awaitable",
    "AsyncIterator", "AsyncIterable", "Coroutine", "Collection", "AsyncGenerator",
    "AsyncContextManager", "Reversible", "SupportsAbs", "SupportsBytes", "SupportsComplex",
    "SupportsFloat", "SupportsIndex", "SupportsInt", "SupportsRound", "ChainMap", "Counter",
    "Deque", "Dict", "DefaultDict", "List", "OrderedDict", "Set", "FrozenSet", "NamedTuple",
    "TypedDict", "Generator", "BinaryIO", "IO", "Match", "Pattern", "TextIO", "AnyStr",
    "assert_type", "assert_never", "cast", "clear_overloads", "dataclass_transform", "final",
    "get_args", "get_origin", "get_overloads", "get_type_hints", "is_typeddict",
    "LiteralString", "Never", "NewType", "no_type_check", "no_type_check_decorator", "NoReturn",
    "NotRequired", "overload", "ParamSpecArgs", "ParamSpecKwargs", "Required", "reveal_type",
    "runtime_checkable", "Self", "Text", "TYPE_CHECKING", "TypeAlias", "TypeGuard", "Unpack"]),
  ("uuid", [
    "UUID", "SafeUUID", "getnode", "uuid1", "uuid3", "uuid4", "uuid5", "NAMESPACE_DNS",
    "NAMESPACE_URL", "NAMESPACE_OID", "NAMESPACE_X500", "RESERVED_NCS", "RFC_4122",
    "RESERVED_MICROSOFT", "RESERVED_FUTURE"])]

def exportTable : List (Text × List Text) :=
  exports.map fun e => (e.1.toList, e.2.map String.toList)

def isExportedBy (module name : Text) : Bool :=
  exportTable.any fun e => e.1 == module && e.2.contains name

def standardNames : List Text :=
  exportTable.flatMap fun e => e.1 :: e.2

/-- The literals of the table and their characters. -/
inductive SpellsTable : List (String × List String) → List (Text × List Text) → Prop where
  | nil : SpellsTable [] []
  | cons (module : Text) {names : List String} {texts : List Text}
    {entries : List (String × List String)} {table : List (Text × List Text)} :
    Text.Spells names texts → SpellsTable entries table →
      SpellsTable ((String.ofList module, names) :: entries) ((module, texts) :: table)

theorem SpellsTable.map_toList {entries : List (String × List String)}
    {table : List (Text × List Text)} (h : SpellsTable entries table) :
    entries.map (fun e => (e.1.toList, e.2.map String.toList)) = table := by
  induction h with
  | nil => rfl
  | cons module hn _ ih => rw [List.map_cons, ih, String.toList_ofList, hn.map_toList]

theorem check_exportTable {p : List (Text × List Text) → Bool} {table : List (Text × List Text)}
    (table_spelled : SpellsTable exports table) (check : p table = true) :
    p exportTable = true := by
  rw [exportTable, table_spelled.map_toList]
  exact check

/-- The words of generated code that no module exports. -/
def plainWords : List Text :=
  ["None", "True", "False", "str", "int", "float", "bool", "bytes", "async", "with", "conn", "as",
    "cur", "await", "row", "rows", "if", "is", "return", "colnames", "desc", "for", "in", "else",
    "not", "v", "def", "class", "name", "value", "from_text", "isinstance", "dict", "zip",
    "_convert_scalar", "_decode_value", "_decode_row", "_encode_json", "_register_enum",
    "_register_record"].map String.toList

theorem all_plainWords : plainWords.all (fun name => !standardNames.contains name) = true := by
  apply check_exportTable (p := fun table =>
    plainWords.all fun name => !(table.flatMap fun e => e.1 :: e.2).contains name)
  case table_spelled => repeat constructor
  case check => decide +kernel

theorem not_standard {name : Text} (h : name ∈ plainWords) : name ∉ standardNames := by
  simpa using List.all_eq_true.mp all_plainWords name h

def importedNames : List (Text × Text) :=
  [("typing", "Any"), ("typing", "Dict"), ("typing", "List"), ("typing", "Optional"),
    ("typing", "Sequence"), ("typing", "Tuple"), ("typing", "Type"), ("typing", "TypeVar"),
    ("typing", "Union"), ("enum", "Enum"), ("dataclasses", "dataclass"), ("dataclasses", "fields"),
    ("decimal", "Decimal"), ("uuid", "UUID"), ("datetime", "date"), ("datetime", "datetime"),
    ("datetime", "time"), ("datetime", "timedelta")]

theorem all_importedNames : importedNames.all (fun p => isExportedBy p.1 p.2) = true := by
  apply check_exportTable (p := fun table => importedNames.all fun p =>
    table.any fun e => e.1 == p.1 && e.2.contains p.2)
  case table_spelled => repeat constructor
  case check => decide +kernel

theorem mem_standardNames {m name : Text} (h : (m, name) ∈ importedNames) :
    name ∈ standardNames := by
  have he : isExportedBy m name = true := List.all_eq_true.mp all_importedNames _ h
  obtain ⟨e, hm, hn⟩ := List.any_eq_true.mp he
  rw [Bool.and_eq_true, List.contains_iff_mem] at hn
  exact List.mem_flatMap.mpr ⟨e, hm, List.mem_cons_of_mem _ hn.2⟩

theorem json_not_exported : exportTable.all (fun e => !e.2.contains "json".toList) = true := by
  apply check_exportTable (p := fun table => table.all fun e => !e.2.contains "json".toList)
  case table_spelled => repeat constructor
  case check => decide +kernel

end Code

end Bindery
