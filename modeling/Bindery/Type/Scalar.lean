import Bindery.Text.Basic

namespace Bindery

/-- The kinds of primitive values. -/
inductive Scalar where
  | text
  | integer
  | float
  | decimal
  | boolean
  | uuid
  | timestamp
  | date
  | time
  | interval
  | json
  | bytes
  | record
  deriving DecidableEq, Repr

/-- How a primitive value that arrives as text is read. -/
inductive Converter where
  | decimal
  | uuid
  | bool
  | bytes
  | date
  | datetime
  | float
  | int
  | json
  | time
  deriving DecidableEq, Repr

namespace Scalar

def all : List Scalar :=
  [.text, .integer, .float, .decimal, .boolean, .uuid, .timestamp, .date, .time, .interval, .json,
    .bytes, .record]

/-- The SQL names of a primitive type, without modifiers. -/
def sqlNames : Scalar → List Text
  | .text =>
    ["text", "varchar", "character varying", "char", "character", "bpchar", "name", "citext",
      "inet", "cidr", "macaddr", "xml", "tsvector"].map String.toList
  | .integer =>
    ["smallint", "integer", "int", "int2", "int4", "int8", "bigint", "serial", "serial4",
      "serial8", "smallserial", "bigserial", "oid"].map String.toList
  | .float => ["real", "float4", "float8", "float", "double precision"]
  | .decimal => ["numeric", "decimal", "money"]
  | .boolean => ["boolean", "bool"]
  | .uuid => ["uuid"]
  | .timestamp =>
    ["timestamp", "timestamptz", "timestamp with time zone", "timestamp without time zone"]
  | .date => ["date"]
  | .time => ["time", "timetz", "time with time zone", "time without time zone"]
  | .interval => ["interval"]
  | .json => ["json", "jsonb"]
  | .bytes => ["bytea"]
  | .record => ["record"]

/-- The primitive type that a normalized name denotes, also in the system schema. -/
def ofSqlName? (name : Text) : Option Scalar :=
  let name := (Text.dropFront? "pg_catalog." name).getD name
  all.find? fun scalar => scalar.sqlNames.contains name

def pythonType : Scalar → Text
  | .text => "str"
  | .integer => "int"
  | .float => "float"
  | .decimal => "Decimal"
  | .boolean => "bool"
  | .uuid => "UUID"
  | .timestamp => "datetime"
  | .date => "date"
  | .time => "time"
  | .interval => "timedelta"
  | .json => "Dict[str, Any]"
  | .bytes => "bytes"
  | .record => "Tuple[Any, ...]"

/-- The module and the name that the Python type is imported from and by, outside `typing`. -/
def import? : Scalar → Option (Text × Text)
  | .decimal => some ("decimal", "Decimal")
  | .uuid => some ("uuid", "UUID")
  | .timestamp => some ("datetime", "datetime")
  | .date => some ("datetime", "date")
  | .time => some ("datetime", "time")
  | .interval => some ("datetime", "timedelta")
  | _ => none

def typingNames : Scalar → List Text
  | .json => ["Any", "Dict"]
  | .record => ["Any", "Tuple"]
  | _ => []

/-- How the text of a value is read; a type without converter keeps the text. -/
def converter? : Scalar → Option Converter
  | .integer => some .int
  | .float => some .float
  | .decimal => some .decimal
  | .boolean => some .bool
  | .uuid => some .uuid
  | .timestamp => some .datetime
  | .date => some .date
  | .time => some .time
  | .json => some .json
  | .bytes => some .bytes
  | .text | .interval | .record => none

end Scalar

namespace Converter

def all : List Converter :=
  [.decimal, .uuid, .bool, .bytes, .date, .datetime, .float, .int, .json, .time]

def name : Converter → Text
  | .decimal => "Decimal"
  | .uuid => "UUID"
  | .bool => "bool"
  | .bytes => "bytes"
  | .date => "date"
  | .datetime => "datetime"
  | .float => "float"
  | .int => "int"
  | .json => "json"
  | .time => "time"

end Converter

end Bindery
