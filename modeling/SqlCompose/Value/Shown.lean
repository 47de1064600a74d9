import SqlCompose.Numeral
import SqlCompose.Value
import SqlCompose.Value.Moment

/-!
# Values in messages

A value can be shown, with quotes and type names so that values of different types look different, or printed, which differs from showing for texts, numbers, dates and times. Containers show their items, and records their fields with the names of these.

A finished query prints as its text and a column type as what it builds, so these two cannot be printed if that is no text. Nothing can be shown that has a number with too many digits in it.
-/

namespace SqlCompose

/-- Bytes in quotes after the letter `b`; only ASCII shows as itself. What is put into quotes for an array of bytes escapes every single quote, whatever the quotes around it. -/
def shownBytes (everySingleQuote : Bool) (content : List UInt8) : Text :=
  let quote := Text.quoteFor (content.contains 39) (content.contains 34)
  let one (byte : UInt8) : Text :=
    if everySingleQuote && byte = 39 then "\\'"
    else if byte < 127 then Text.escaped quote (Char.ofNat byte.toNat)
    else "\\x" ++ Text.hexDigits 2 byte.toNat
  'b' :: quote :: content.flatMap one ++ [quote]

/-! ### Dates and times -/

namespace CalendarDate

def shownFields (date : CalendarDate) : List Text :=
  [Text.ofNat date.year, Text.ofNat date.month, Text.ofNat date.day]

end CalendarDate

def shownDuration (days seconds microseconds : Int) : Text :=
  let named (name : Text) (n : Int) : List Text := if n = 0 then [] else [name ++ "=" ++ Text.ofInt n]
  let fields := named "days" days ++ named "seconds" seconds ++ named "microseconds" microseconds
  "datetime.timedelta(" ++ (if fields.isEmpty then ("0" : Text) else Text.join ", " fields) ++ ")"

def printedDuration (days seconds microseconds : Int) : Text :=
  let inDay := seconds.toNat
  let dayText : Text :=
    if days = 0 then [] else Text.ofInt days ++ (if days.natAbs = 1 then (" day, " : Text) else " days, ")
  let fraction : Text := if microseconds = 0 then [] else '.' :: Text.padded 6 microseconds.toNat
  dayText ++ Text.ofNat (inDay / 3600) ++ ":" ++ Text.padded 2 (inDay / 60 % 60) ++ ":" ++ Text.padded 2 (inDay % 60)
    ++ fraction

namespace ClockTime

private def shownOffset (microseconds : Int) : Text :=
  if microseconds = 0 then "datetime.timezone.utc"
  else
    let seconds := Int.fdiv microseconds 1000000
    "datetime.timezone(" ++
      shownDuration (Int.fdiv seconds 86400) (Int.fmod seconds 86400) (Int.fmod microseconds 1000000) ++ ")"

/-- Hour and minute always, seconds and microseconds only if something other than nought follows. -/
def shownFields (time : ClockTime) : List Text :=
  let clock := [Text.ofNat time.hour, Text.ofNat time.minute]
    ++ (if time.second = 0 && time.microsecond = 0 then [] else [Text.ofNat time.second])
    ++ (if time.microsecond = 0 then [] else [Text.ofNat time.microsecond])
  clock ++ match time.offset with
    | none => []
    | some offset => ["tzinfo=" ++ shownOffset offset]

end ClockTime

private def call (name : Text) (arguments : List Text) : Text :=
  name ++ "(" ++ Text.join ", " arguments ++ ")"

/-! ### Values -/

namespace Value

def shownScalar : Value → Except Error Text
  | null => .ok "None"
  | bool b => .ok (if b then "True" else "False")
  | int n => Numeral.write n
  | float spelling => .ok spelling
  | floatNaN _ => .ok "nan"
  | decimal spelling | decimalNaN _ spelling => .ok (call "Decimal" [Text.shown spelling])
  | text t => .ok (Text.shown t)
  | entry e => .ok ("<" ++ e.list ++ "." ++ e.member ++ ": " ++ Text.shown e.word ++ ">")
  | bytes content => .ok (shownBytes false content)
  | byteArray _ content => .ok (call "bytearray" [shownBytes true content])
  | date iso => .ok (call "datetime.date" (CalendarDate.ofText iso).shownFields)
  | dateTime iso => .ok (call "datetime.datetime" ((splitMoment iso).1.shownFields ++ (splitMoment iso).2.shownFields))
  | time iso => .ok (call "datetime.time" (ClockTime.ofText iso).shownFields)
  | duration days seconds microseconds => .ok (shownDuration days seconds microseconds)
  | uuid spelling => .ok (call "UUID" [Text.shown spelling])
  | unbindable _ kind => .ok kind.shown
  | object _ face => face.shown.elim (.error .numberTooLong) .ok
  | list _ _ | tuple _ _ | dict _ _ | record _ _ _ => .ok []

private def namedFields : List Text → List Text → List Text
  | name :: names, field :: fields => (name ++ "=" ++ field) :: namedFields names fields
  | _, _ => []

mutual

def shown : Value → Except Error Text
  | list _ items => do return "[" ++ Text.join ", " (← shownItems items) ++ "]"
  | tuple _ items => do
    match ← shownItems items with
    | [only] => return "(" ++ only ++ ",)"
    | parts => return "(" ++ Text.join ", " parts ++ ")"
  | dict _ entries => do return "\x7b" ++ Text.join ", " (← shownEntries entries) ++ "\x7d"
  | record _ kind fields => do return call kind.name (namedFields kind.fieldNames (← shownItems fields))
  | scalar => shownScalar scalar

def shownItems : List Value → Except Error (List Text)
  | [] => .ok []
  | item :: items => do return (← shown item) :: (← shownItems items)

def shownEntries : List (Value × Value) → Except Error (List Text)
  | [] => .ok []
  | (key, value) :: entries => do return ((← shown key) ++ ": " ++ (← shown value)) :: (← shownEntries entries)

end

mutual

def printed : Value → Except Error Text
  | text t => .ok t
  | entry e => .ok (e.list ++ "." ++ e.member)
  | decimal spelling | decimalNaN _ spelling => .ok spelling
  | date iso | time iso => .ok iso
  | dateTime iso => .ok (iso.map fun c => if c = 'T' then ' ' else c)
  | duration days seconds microseconds => .ok (printedDuration days seconds microseconds)
  | uuid spelling => .ok spelling
  | record _ .builtQuery fields => contentOfFirst fields
  | record _ .columnType fields => printedType fields
  | value => value.shown

def contentOfFirst : List Value → Except Error Text
  | first :: _ => match first.text? with
    | some t => .ok t
    | none => .error .badArgument
  | [] => .error .badArgument

/-- A type name with arguments in parentheses if there are any. The name alone must be a text; in front of arguments it is written as any value is. -/
def printedType : List Value → Except Error Text
  | [name, tuple _ arguments] =>
    if arguments.isEmpty then contentOfFirst [name]
    else do return (← printed name) ++ "(" ++ Text.join ", " (← shownItems arguments) ++ ")"
  | _ => .error .badArgument

end

/-- What a value gives when it is turned into a text. An entry of a list that is the text of a finished query or the name of a type without arguments stays an entry. -/
def worded : Value → Except Error Value
  | record _ .builtQuery (given :: _) | record _ .columnType [given, tuple _ []] =>
    if given.isText then .ok given else .error .badArgument
  | value => value.printed.map text

end Value

end SqlCompose
