import SqlCompose.Text.Blank
import SqlCompose.Value.Copy
import SqlCompose.Value.Number

/-!
# Reading values as arguments

Whether a value counts as true, what it gives when it is gone through item by item, and the forms in which a call takes references, counts, switches and lists of columns.

Where a text is wanted, an entry of a list of words serves with its word. Bytes and numbers do not serve: where the text is taken apart a number fails as something that has no such operation, bytes fail as an argument of the wrong type; where texts are put together both fail alike.
-/

namespace SqlCompose.Value

/-- Nothing, nought, and everything empty count as false; all else counts as true. -/
def truthy : Value → Bool
  | null => false
  | bool b => b
  | int n => n != 0
  | float spelling => !(Number.ofBinary spelling).isZero
  | decimal spelling => !(Number.ofDecimal spelling).isZero
  | text t => !t.isEmpty
  | entry e => !e.word.isEmpty
  | bytes content | byteArray _ content => !content.isEmpty
  | duration days seconds microseconds => days != 0 || seconds != 0 || microseconds != 0
  | list _ items | tuple _ items => !items.isEmpty
  | dict _ entries => !entries.isEmpty
  | unbindable _ kind => kind != .frozenset
  | object _ face => face.truthy
  | _ => true

/-- The items of a value that can be gone through: characters, bytes, items or keys, and the fields of a finished query or a rendered text. -/
def items? : Value → Option (List Value)
  | text t => some (t.map fun c => .text [c])
  | entry e => some (e.word.map fun c => .text [c])
  | bytes content | byteArray _ content => some (content.map fun byte => .int byte.toNat)
  | list _ items | tuple _ items => some items
  | dict _ entries => some (entries.map (·.1))
  | record _ .builtQuery fields | record _ .rendered fields => some fields
  | unbindable _ .range => some [.int 0, .int 1, .int 2]
  | unbindable _ .set => some [.int 1]
  | unbindable _ .frozenset => some []
  | _ => none

def items (value : Value) : Except Error (List Value) :=
  match value.items? with
  | some items => .ok items
  | none => .error .badArgument

/-- How many items a value has; a finished query does not tell. -/
def length? : Value → Option Nat
  | record _ .builtQuery _ => none
  | value => value.items?.map List.length

/-! ### Texts -/

def asText (value : Value) : Except Error Text :=
  match value.text? with
  | some t => .ok t
  | none => .error .badArgument

def asTexts (values : List Value) : Except Error (List Text) :=
  values.mapM asText

/-- A value as a text that is taken apart, such as a reference to a table or a column. -/
def asReference : Value → Except Error Text
  | text t => .ok t
  | entry e => .ok e.word
  | bytes _ | byteArray _ _ => .error .badArgument
  | _ => .error .attributeMissing

def isBlankByte (byte : UInt8) : Bool :=
  byte = 32 || (9 ≤ byte && byte ≤ 13)

private def byteWords (content : List UInt8) : List (List UInt8) :=
  (content.splitBy fun a b => isBlankByte a == isBlankByte b).filter fun run => !(run.headD 32 |> isBlankByte)

/-- Bytes without the ASCII blanks around them, and with the ASCII capitals as small letters. -/
def plainBytes (content : List UInt8) : List UInt8 :=
  let trimmed := ((content.dropWhile isBlankByte).reverse.dropWhile isBlankByte).reverse
  trimmed.map fun byte => if 65 ≤ byte && byte ≤ 90 then byte + 32 else byte

def words : Value → Except Error (List Value)
  | text t => .ok ((Text.words t).map text)
  | entry e => .ok ((Text.words e.word).map text)
  | bytes content => .ok ((byteWords content).map bytes)
  | byteArray label content => .ok ((byteWords content).map (byteArray label))
  | _ => .error .attributeMissing

/-- One text, or the items of anything that is no text. -/
def asList (value : Value) : Except Error (List Value) :=
  if value.isText then .ok [value] else value.items

/-! ### Switches and counts -/

def asSwitch : Value → Option Bool
  | null => none
  | value => some value.truthy

def orElse (standard : Value) : Value → Value
  | null => standard
  | value => value

/-- The number of a limit or an offset: a whole number, not below nought, and no truth value. -/
def asCount (label : Text) : Value → Except Error Nat
  | int (.ofNat n) => .ok n
  | _ => .error (.clause (.count label))

/-! ### Columns and values -/

def asPair (value : Value) : Except Error (Value × Value) := do
  match ← value.items with
  | [column, given] => return (column, given)
  | [] => throw (.badShape "not enough values to unpack (expected 2, got 0)")
  | [_] => throw (.badShape "not enough values to unpack (expected 2, got 1)")
  | _ => throw (.badShape "too many values to unpack (expected 2)")

/-- A column and a copy of its value, which must be one that can be bound. -/
def takeOver (pair : Value × Value) : Build (Value × Value) := do
  return (pair.1, ← pair.2.check)

def takeOverPairs : Value → Build (List (Value × Value))
  | dict _ entries => entries.mapM takeOver
  | value => do (← value.items).mapM fun item => do takeOver (← item.asPair)

end SqlCompose.Value
