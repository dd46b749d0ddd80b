import Bindery.Binding.Basic
import Bindery.Module.Descriptor
import Bindery.Module.Imports

namespace Bindery

namespace Module

def resultHelpers : Text :=
  Text.ofLines [
    "_T = TypeVar('_T')",
    "",
    "",
    "def get_optional(result: Union[Sequence[_T], _T, None]) -> Optional[_T]:",
    "    \"\"\"Return the single item of a result, or None when there is not exactly one.",
    "",
    "    Accepts None, a list of results or a single result.",
    "    \"\"\"",
    "    if result is None:",
    "        return None",
    "    if isinstance(result, Sequence) and not isinstance(result, (str, bytes)):",
    "        return result[0] if len(result) == 1 else None",
    "    return result",
    "",
    "",
    "def get_required(result: Union[Sequence[_T], _T, None]) -> _T:",
    "    \"\"\"Return the single item of a result, raising ValueError when there is not exactly one.\"\"\"",
    "    item = get_optional(result)",
    "    if item is None:",
    "        text = repr(result)",
    "        if len(text) > 80:",
    "            text = text[:77] + '...'",
    "        raise ValueError(f'Expected exactly one result, got none or several: \x7btext\x7d')",
    "    return item"]

def registries : Text :=
  Text.ofLines [
    "_ENUM_REGISTRY: Dict[str, Type[Enum]] = \x7b\x7d",
    "_RECORD_REGISTRY: Dict[type, Tuple[Dict[str, Any], Dict[str, str]]] = \x7b\x7d",
    "",
    "",
    "def _register_enum(sql_name: str, cls: Type[Enum]) -> None:",
    "    _ENUM_REGISTRY[sql_name] = cls",
    "",
    "",
    "def _register_record(",
    "    cls: type,",
    "    kinds: Optional[Dict[str, Any]] = None,",
    "    columns: Optional[Dict[str, str]] = None,",
    ") -> None:",
    "    _RECORD_REGISTRY[cls] = (kinds or \x7b\x7d, columns or \x7b\x7d)",
    "",
    "",
    "def _decode_enum(sql_name: str, value: Any) -> Any:",
    "    if value is None:",
    "        return None",
    "    cls = _ENUM_REGISTRY[sql_name]",
    "    if isinstance(value, cls):",
    "        return value",
    "    text = str(value)",
    "    for member in cls:",
    "        if member.value == text:",
    "            return member",
    "    lowered = text.lower()",
    "    for member in cls:",
    "        if member.value.lower() == lowered:",
    "            return member",
    "    raise ValueError(f'\x7btext!r\x7d is not a valid \x7bcls.__name__\x7d')"]

/-- The reading of composite and array values that arrive as text. -/
def textParsing : Text :=
  Text.ofLines [
    "def _finish_item(chars: List[str], was_quoted: bool, array: bool) -> Optional[str]:",
    "    text = ''.join(chars)",
    "    if was_quoted:",
    "        return text",
    "    if array:",
    "        text = text.strip()",
    "        return None if text.upper() == 'NULL' else text",
    "    return text if text else None",
    "",
    "",
    "def _split_delimited(body: str, array: bool) -> List[Optional[str]]:",
    "    items: List[Optional[str]] = []",
    "    current: List[str] = []",
    "    quoted = False",
    "    was_quoted = False",
    "    depth = 0",
    "    i = 0",
    "    while i < len(body):",
    "        ch = body[i]",
    "        if quoted:",
    "            if ch == '\\\\' and i + 1 < len(body):",
    "                i += 1",
    "                current.append(body[i])",
    "            elif ch == '\"' and i + 1 < len(body) and body[i + 1] == '\"':",
    "                i += 1",
    "                current.append('\"')",
    "            elif ch == '\"':",
    "                quoted = False",
    "            else:",
    "                current.append(ch)",
    "        elif ch == '\"':",
    "            quoted = True",
    "            was_quoted = True",
    "        elif ch in '(\x7b':",
    "            depth += 1",
    "            current.append(ch)",
    "        elif ch in ')\x7d':",
    "            depth -= 1",
    "            current.append(ch)",
    "        elif ch == ',' and depth == 0:",
    "            items.append(_finish_item(current, was_quoted, array))",
    "            current = []",
    "            was_quoted = False",
    "        else:",
    "            current.append(ch)",
    "        i += 1",
    "    items.append(_finish_item(current, was_quoted, array))",
    "    return items",
    "",
    "",
    "def _parse_composite(text: str) -> Optional[List[Optional[str]]]:",
    "    text = text.strip()",
    "    if not (text.startswith('(') and text.endswith(')')):",
    "        return None",
    "    return _split_delimited(text[1:-1], False)",
    "",
    "",
    "def _parse_array(text: str) -> Optional[List[Optional[str]]]:",
    "    text = text.strip()",
    "    if not (text.startswith('\x7b') and text.endswith('\x7d')):",
    "        return None",
    "    body = text[1:-1]",
    "    if not body.strip():",
    "        return []",
    "    return _split_delimited(body, True)"]

def decoding : Text :=
  Text.ofLines [
    "def _decode_value(kind: Any, value: Any, from_text: bool = False) -> Any:",
    "    if kind is None or value is None:",
    "        return value",
    "    tag, arg = kind",
    "    if tag == 'scalar':",
    "        return _convert_scalar(arg, value, from_text)",
    "    if tag == 'enum':",
    "        return _decode_enum(arg, value)",
    "    if tag == 'record':",
    "        return _decode_record(arg, value)",
    "    if tag == 'list':",
    "        if isinstance(value, str):",
    "            items = _parse_array(value)",
    "            if items is None:",
    "                raise ValueError(f'Cannot decode array from \x7bvalue!r\x7d')",
    "            return [_decode_value(arg, item, True) for item in items]",
    "        return [_decode_value(arg, item, from_text) for item in value]",
    "    return value",
    "",
    "",
    "def _build_record(cls: type, raw: Dict[str, Any], absent_if_empty: bool, from_text: bool = False) -> Any:",
    "    if absent_if_empty and all(value is None for value in raw.values()):",
    "        return None",
    "    kinds, columns = _RECORD_REGISTRY.get(cls, (\x7b\x7d, \x7b\x7d))",
    "    lowered = \x7bstr(key).lower(): value for key, value in raw.items()\x7d",
    "    values = \x7b\x7d",
    "    for field in fields(cls):",
    "        column = columns.get(field.name, field.name)",
    "        value = raw[column] if column in raw else lowered.get(column.lower())",
    "        values[field.name] = _decode_value(kinds.get(field.name), value, from_text)",
    "    return cls(**values)",
    "",
    "",
    "def _decode_record(cls: type, value: Any) -> Any:",
    "    if value is None or isinstance(value, cls):",
    "        return value",
    "    if isinstance(value, dict):",
    "        return _build_record(cls, value, True)",
    "    from_text = isinstance(value, str)",
    "    if from_text:",
    "        items = _parse_composite(value)",
    "        if items is None:",
    "            raise ValueError(f'Cannot decode \x7bcls.__name__\x7d from \x7bvalue!r\x7d')",
    "        value = items",
    "    columns = _RECORD_REGISTRY.get(cls, (\x7b\x7d, \x7b\x7d))[1]",
    "    names = [columns.get(field.name, field.name) for field in fields(cls)]",
    "    return _build_record(cls, dict(zip(names, value)), True, from_text)",
    "",
    "",
    "def _decode_row(cls: type, colnames: Sequence[str], row: Any, absent_if_empty: bool = True) -> Any:",
    "    \"\"\"Decode a result row into ``cls`` by column name.\"\"\"",
    "    if row is None:",
    "        return None",
    "    raw = row if isinstance(row, dict) else dict(zip(colnames, row))",
    "    return _build_record(cls, raw, absent_if_empty)"]

def jsonEncoder : Text :=
  Text.ofLines [
    "class _DatabaseJSONEncoder(json.JSONEncoder):",
    "    \"\"\"JSON encoder for identifiers, timestamps, decimals and enums.\"\"\"",
    "",
    "    def default(self, o: Any) -> Any:",
    "        if isinstance(o, UUID):",
    "            return str(o)",
    "        if isinstance(o, (datetime, date)):",
    "            return o.isoformat()",
    "        if isinstance(o, Decimal):",
    "            return str(o)",
    "        if isinstance(o, Enum):",
    "            return o.value",
    "        return super().default(o)",
    "",
    "",
    "def _encode_json(value: Any) -> Optional[str]:",
    "    if value is None:",
    "        return None",
    "    return json.dumps(value, cls=_DatabaseJSONEncoder)"]

end Module

namespace Converter

def statement : Converter → Text
  | .decimal => "return Decimal(value)"
  | .uuid => "return UUID(value)"
  | .bool => "return value.strip().lower() in ('t', 'true', 'y', 'yes', 'on', '1')"
  | .bytes =>
    "return bytes.fromhex(value[2:]) if value.startswith('\\\\x') else value.encode()"
  | .date => "return date.fromisoformat(value)"
  | .datetime => "return datetime.fromisoformat(value)"
  | .float => "return float(value)"
  | .int => "return int(value)"
  | .json => "return json.loads(value) if from_text else value"
  | .time => "return time.fromisoformat(value)"

def imports : Converter → Imports
  | .decimal => .ofNames "decimal" ["Decimal"]
  | .uuid => .ofNames "uuid" ["UUID"]
  | .date => .ofNames "datetime" ["date"]
  | .datetime => .ofNames "datetime" ["datetime"]
  | .time => .ofNames "datetime" ["time"]
  | .json => .ofModule "json"
  | .bool | .bytes | .float | .int => {}

def branch (c : Converter) : Text :=
  "    if name == " ++ Module.quote c.name ++ ":\n        " ++ c.statement ++ "\n"

end Converter

/-- A section of the support code. -/
inductive SupportSection where
  | resultHelpers
  | registries
  | textParsing
  | convertScalar (converters : List Converter)
  | decoding
  | jsonEncoder
  deriving DecidableEq, Repr

namespace SupportSection

def render : SupportSection → Text
  | .resultHelpers => Module.resultHelpers
  | .registries => Module.registries
  | .textParsing => Module.textParsing
  | .convertScalar converters =>
    "def _convert_scalar(name: str, value: Any, from_text: bool = False) -> Any:\n" ++
      "    if not isinstance(value, str):\n        return value\n" ++
      converters.flatMap Converter.branch ++ "    return value\n"
  | .decoding => Module.decoding
  | .jsonEncoder => Module.jsonEncoder

def imports : SupportSection → Imports
  | .resultHelpers => .ofNames "typing" ["Optional", "Sequence", "TypeVar", "Union"]
  | .registries =>
    Imports.ofNames "enum" ["Enum"] ++
      Imports.ofNames "typing" ["Any", "Dict", "Optional", "Tuple", "Type"]
  | .textParsing => .ofNames "typing" ["List", "Optional"]
  | .convertScalar converters =>
    Imports.ofNames "typing" ["Any"] ++ Imports.concat (converters.map Converter.imports)
  | .decoding =>
    Imports.ofNames "dataclasses" ["fields"] ++
      Imports.ofNames "typing" ["Any", "Dict", "Sequence"]
  | .jsonEncoder =>
    Imports.ofModule "json" ++ Imports.ofNames "uuid" ["UUID"] ++
      Imports.ofNames "datetime" ["date", "datetime"] ++ Imports.ofNames "decimal" ["Decimal"] ++
      Imports.ofNames "enum" ["Enum"] ++ Imports.ofNames "typing" ["Any", "Optional"]

end SupportSection

/-- A call that tells the decoder about a class. -/
inductive RegistrationCall where
  | enum (sqlName className : Text)
  | record (className : Text) (kinds : List (Text × Descriptor)) (renames : List (Text × Text))
  deriving DecidableEq, Repr

namespace RegistrationCall

def dictionary (entries : List Text) : Text :=
  "\x7b" ++ Text.join ", " entries ++ "\x7d"

def render : RegistrationCall → Text
  | .enum sqlName className =>
    "_register_enum(" ++ Module.quote sqlName ++ ", " ++ className ++ ")\n"
  | .record className kinds renames =>
    let entry (key value : Text) : Text := Module.quote key ++ ": " ++ value
    let kinds : Text := dictionary (kinds.map fun (key, kind) => entry key kind.render)
    let renames : Text :=
      if renames.isEmpty then []
      else ", " ++ dictionary (renames.map fun (key, name) => entry key (Module.quote name))
    "_register_record(" ++ className ++ ", " ++ kinds ++ renames ++ ")\n"

/-- The call for a record class that has fields to decode or renamed fields. -/
def ofRecord? (r : RecordClass) : Option RegistrationCall :=
  let kinds := (r.fields.map fun f => (f.identifier, f.type.descriptor)).filter fun (_, kind) =>
    kind != .plain
  let renames := (r.fields.filter Field.isRenamed).map fun f => (f.identifier, f.name)
  if kinds.isEmpty && renames.isEmpty then none else some (.record r.className kinds renames)

end RegistrationCall

namespace Binding

def enumsByName (b : Binding) : List EnumClass :=
  b.enums.mergeSort fun d e => !decide (e.className < d.className)

def needsDecoding (b : Binding) : Bool :=
  !b.enums.isEmpty || !b.records.isEmpty

def needsEncoder (b : Binding) : Bool :=
  b.hasJsonParams

/-- The converters that the descriptors of fields and results name. -/
def converters (b : Binding) : List Converter :=
  let fields := b.records.flatMap fun r => r.fields.filterMap fun f => f.type.converter?
  let results := b.wrappers.filterMap fun w =>
    match w.result with
    | .value type => if type.needsDecoding then type.converter? else none
    | _ => none
  Converter.all.filter (fields ++ results).contains

def supportSections (b : Binding) : List SupportSection :=
  .resultHelpers ::
    (if b.needsDecoding then [.registries, .textParsing, .convertScalar b.converters, .decoding]
      else []) ++
    (if b.needsEncoder then [.jsonEncoder] else [])

/-- The calls that register the enum classes, and the record classes in the given order. -/
def registrationCalls (b : Binding) (records : List RecordClass) : List RegistrationCall :=
  b.enumsByName.map (fun e => .enum e.sqlName e.className) ++
    records.filterMap RegistrationCall.ofRecord?

end Binding

end Bindery
