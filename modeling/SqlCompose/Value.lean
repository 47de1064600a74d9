import SqlCompose.Text

/-!
# Values

What a caller can hand over to be bound to a placeholder or to be used as a name, together with the few things that look like values and cannot be bound. A list, a tuple, a dictionary and an array of bytes carry a label, and so does everything that is equal to nothing but itself. Two occurrences with one label are one object: an object changed in one place is changed in all places that hold it, and a copy has a label of its own.

A record is an object of a few named fields that are never set again, such as a predicate or a finished query. It is a value like a tuple, though only a rendered text is one. All other objects are known to values by their label, and by what they look like at the time.

Numbers, dates and times carry their canonical text and are read only where they are compared or shown.
-/

namespace SqlCompose

abbrev Label := Nat

/-- An entry of a closed list of words: the name of the list, the name of the entry in it, and its word. -/
structure ListEntry where
  list : Text
  member : Text
  word : Text
  deriving DecidableEq, Repr

/-- Things that can be passed as a value and never bound. -/
inductive Unbindable where
  | ellipsis
  | complex
  | range
  | set
  | frozenset
  | type
  | callback
  deriving DecidableEq, Repr

inductive RecordKind where
  | predicate
  | builtQuery
  | orderBy
  | columnType
  | foreignKey
  | rendered
  deriving DecidableEq, Repr

/-- What values can tell about an object that is no value: its kind, how it is shown if it can be, and whether it counts as true. -/
structure ObjectFace where
  kind : Text
  shown : Option Text
  truthy : Bool
  deriving DecidableEq, Repr

inductive Value where
  | null
  | bool (b : Bool)
  | int (n : Int)
  | float (text : Text)
  | floatNaN (label : Label)
  | decimal (text : Text)
  | decimalNaN (label : Label) (text : Text)
  | text (t : Text)
  | entry (e : ListEntry)
  | bytes (content : List UInt8)
  | byteArray (label : Label) (content : List UInt8)
  | date (iso : Text)
  | dateTime (iso : Text)
  | time (iso : Text)
  | duration (days seconds microseconds : Int)
  | uuid (text : Text)
  | list (label : Label) (items : List Value)
  | tuple (label : Label) (items : List Value)
  | dict (label : Label) (entries : List (Value × Value))
  | record (label : Label) (kind : RecordKind) (fields : List Value)
  | unbindable (label : Label) (kind : Unbindable)
  | object (label : Label) (face : ObjectFace)
  deriving Repr

instance : Inhabited Value := ⟨.null⟩

namespace Unbindable

def typeName : Unbindable → Text
  | ellipsis => "ellipsis"
  | complex => "complex"
  | range => "range"
  | set => "set"
  | frozenset => "frozenset"
  | type => "type"
  | callback => "function"

def shown : Unbindable → Text
  | ellipsis => "Ellipsis"
  | complex => "(1+2j)"
  | range => "range(0, 3)"
  | set => "\x7b1\x7d"
  | frozenset => "frozenset()"
  | type => "<class 'int'>"
  | callback => "<function>"

end Unbindable

namespace RecordKind

def name : RecordKind → Text
  | predicate => "Predicate"
  | builtQuery => "BuiltQuery"
  | orderBy => "OrderBy"
  | columnType => "ColumnType"
  | foreignKey => "ForeignKey"
  | rendered => "RenderedFragment"

def fieldNames : RecordKind → List Text
  | predicate | builtQuery => ["text", "values"]
  | orderBy => ["field", "direction"]
  | columnType => ["name", "arguments"]
  | foreignKey => ["table", "column", "on_delete", "on_update"]
  | rendered => ["text", "values", "next_index"]

end RecordKind

namespace Value

def typeName : Value → Text
  | null => "NoneType"
  | bool _ => "bool"
  | int _ => "int"
  | float _ | floatNaN _ => "float"
  | decimal _ | decimalNaN _ _ => "Decimal"
  | text _ => "str"
  | entry e => e.list
  | bytes _ => "bytes"
  | byteArray _ _ => "bytearray"
  | date _ => "date"
  | dateTime _ => "datetime"
  | time _ => "time"
  | duration _ _ _ => "timedelta"
  | uuid _ => "UUID"
  | list _ _ => "list"
  | tuple _ _ => "tuple"
  | dict _ _ => "dict"
  | record _ kind _ => kind.name
  | unbindable _ kind => kind.typeName
  | object _ face => face.kind

/-- The label by which an object is told from its equals. -/
def label? : Value → Option Label
  | floatNaN label | decimalNaN label _ | byteArray label _ | list label _ | tuple label _ | dict label _
  | record label _ _ | unbindable label _ | object label _ => some label
  | _ => none

/-- The text of a value that is a text; an entry of a list of words is the text of its word. -/
def text? : Value → Option Text
  | text t => some t
  | entry e => some e.word
  | _ => none

def isText (value : Value) : Bool :=
  value.text?.isSome

/-- The items of a tuple; a rendered text is a tuple of its fields. -/
def tuple? : Value → Option (List Value)
  | tuple _ items => some items
  | record _ .rendered fields => some fields
  | _ => none

def field? (name : Text) : Value → Option Value
  | record _ kind fields => (kind.fieldNames.zip fields).lookup name
  | _ => none

end Value

end SqlCompose
