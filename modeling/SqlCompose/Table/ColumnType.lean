import SqlCompose.Text.LetterCase
import SqlCompose.Value.Reading

/-!
# Column types

A column type is a built-in type, a type name with numbers in parentheses, or any text. A type with its arguments is a record among the values; a built-in type is an entry of a list, and it is written in capitals.
-/

namespace SqlCompose

structure ColumnType where
  name : Value
  arguments : List Nat := []
  deriving Repr

namespace ColumnType

/-- The arguments of a type are whole numbers, not below nought, and no truth values. The name is written only into the failure. -/
def asArgument (name : Value) : Value → Except Error Nat
  | .int (.ofNat n) => .ok n
  | value => do throw (.clause (.typeArgument (← name.printed) (← value.shown)))

def make (name : Value) (arguments : List Value) : Except Error ColumnType :=
  (arguments.mapM (asArgument name)).map (⟨name, ·⟩)

def withScale (name precision scale : Value) : Except Error ColumnType :=
  match scale with
  | .null => make name [precision]
  | scale => make name [precision, scale]

def build (type : ColumnType) : Except Error Value := do
  if type.arguments.isEmpty then return type.name
  else
    let name ← type.name.printed
    let arguments ← type.arguments.mapM fun (n : Nat) => Numeral.write n
    return .text (name ++ "(" ++ Text.join ", " arguments ++ ")")

/-! ### Types among values -/

def toValue (type : ColumnType) : Build Value := do
  let arguments ← Build.freshLabel
  return .record (← Build.freshLabel) .columnType
    [type.name, .tuple arguments (type.arguments.map fun (n : Nat) => .int n)]

def ofValue? : Value → Option ColumnType
  | .record _ .columnType [name, .tuple _ arguments] =>
    (make name arguments).toOption
  | _ => none

end ColumnType

/-! ### Built-in types -/

namespace BuiltinType

def listName : Text := "ColumnTypes"

/-- The types that PostgreSQL has built in, by the name of the list entry and the name in SQL. -/
def names : List (Text × Text) := [
  ⟨"SMALLINT", "smallint"⟩, ⟨"INTEGER", "integer"⟩, ⟨"BIGINT", "bigint"⟩, ⟨"DECIMAL", "decimal"⟩,
  ⟨"NUMERIC", "numeric"⟩, ⟨"REAL", "real"⟩, ⟨"DOUBLE_PRECISION", "double precision"⟩, ⟨"SERIAL", "serial"⟩,
  ⟨"BIGSERIAL", "bigserial"⟩, ⟨"SMALLSERIAL", "smallserial"⟩, ⟨"MONEY", "money"⟩, ⟨"VARCHAR", "character varying"⟩,
  ⟨"CHAR", "character"⟩, ⟨"TEXT", "text"⟩, ⟨"BYTEA", "bytea"⟩, ⟨"TIMESTAMP", "timestamp"⟩,
  ⟨"TIMESTAMPTZ", "timestamptz"⟩, ⟨"DATE", "date"⟩, ⟨"TIME", "time"⟩, ⟨"TIMETZ", "timetz"⟩,
  ⟨"INTERVAL", "interval"⟩, ⟨"BOOLEAN", "boolean"⟩, ⟨"POINT", "point"⟩, ⟨"LINE", "line"⟩, ⟨"LSEG", "lseg"⟩,
  ⟨"BOX", "box"⟩, ⟨"PATH", "path"⟩, ⟨"POLYGON", "polygon"⟩, ⟨"CIRCLE", "circle"⟩, ⟨"CIDR", "cidr"⟩,
  ⟨"INET", "inet"⟩, ⟨"MACADDR", "macaddr"⟩, ⟨"MACADDR8", "macaddr8"⟩, ⟨"BIT", "bit"⟩, ⟨"VARBIT", "bit varying"⟩,
  ⟨"TSVECTOR", "tsvector"⟩, ⟨"TSQUERY", "tsquery"⟩, ⟨"UUID", "uuid"⟩, ⟨"JSON", "json"⟩, ⟨"JSONB", "jsonb"⟩,
  ⟨"XML", "xml"⟩, ⟨"INT4RANGE", "int4range"⟩, ⟨"INT8RANGE", "int8range"⟩, ⟨"NUMRANGE", "numrange"⟩,
  ⟨"TSRANGE", "tsrange"⟩, ⟨"TSTZRANGE", "tstzrange"⟩, ⟨"DATERANGE", "daterange"⟩, ⟨"OID", "oid"⟩,
  ⟨"PG_LSN", "pg_lsn"⟩]

def entry? (member : Text) : Option ListEntry :=
  (names.lookup member).map fun word => ⟨listName, member, word⟩

end BuiltinType

/-- A column type as it is written: built, in capitals, or as it was given. -/
def renderType (type : Value) : Except Error Value :=
  match ColumnType.ofValue? type, type with
  | some sized, _ => sized.build
  | none, .entry e => .ok (if e.list = BuiltinType.listName then .text (Text.upper e.word) else .entry e)
  | none, other => .ok other

end SqlCompose
