import SqlCompose.Text.Word
import SqlCompose.Value.Reading

/-!
# Layouts

A layout is a pattern for a line of the log. A percent sign begins a directive, and two of them in a row stand for one. A directive may name a field in parentheses; then come flags, a width, a precision after a dot, a letter for the size of numbers, which means nothing here, and the letter that says how the field is written. A coloured layout puts the name of the level in its colour and knows a symbol for the level.

A pattern is read from left to right into pieces, up to the first directive that cannot be read, and the pieces are written in order. So the failure that comes first in the pattern is the one that is seen; within a directive a missing field comes before everything behind its name.
-/

namespace SqlCompose

structure LogLine where
  time : Text
  name : Text
  level : Text
  message : Text
  deriving DecidableEq, Repr

namespace LogLine

/-- The code that switches a colour on, by the name of the level; one further name switches it off. -/
def colourCodes : List (Text × Text) := [
  ("DEBUG", "\x1b[36m"), ("INFO", "\x1b[32m"), ("WARNING", "\x1b[33m"), ("ERROR", "\x1b[31m"),
  ("CRITICAL", "\x1b[35m"), ("RESET", "\x1b[0m")]

def symbols : List (Text × Text) := [
  ("DEBUG", "🔍"), ("INFO", "ℹ️ "), ("WARNING", "⚠️ "), ("ERROR", "❌"), ("CRITICAL", "🔥")]

def colouredLevel (line : LogLine) : Text :=
  match colourCodes.lookup line.level with
  | none => line.level
  | some code => code ++ line.level ++ "\x1b[0m"

/-- A field by its name. The fields for an exception are there, and nothing is in them; thread and process have the names that the first of each has. -/
def field? (coloured : Bool) (line : LogLine) (field : Text) : Option Value :=
  if field = "asctime" then some (.text line.time)
  else if field = "name" then some (.text line.name)
  else if field = "levelname" then some (.text (if coloured then line.colouredLevel else line.level))
  else if field = "message" || field = "msg" then some (.text line.message)
  else if field = "emoji" && coloured then some (.text ((symbols.lookup line.level).getD []))
  else if field = "exc_info" || field = "exc_text" || field = "stack_info" then some .null
  else if field = "threadName" then some (.text "MainThread")
  else if field = "processName" then some (.text "MainProcess")
  else none

/-- The whole record as a value. It is shown as a dictionary of everything known about it; of this only the beginning is the same in every run, and no more than that is given here. -/
def whole (line : LogLine) : Value :=
  .object 0 ⟨"dict", some ("\x7b'name': " ++ Text.shown line.name ++ ", 'msg': " ++ Text.shown line.message ++ ", 'args': "), true⟩

end LogLine

/-! ### Forms -/

/-- How a field is written: its place in the width, the width, the precision and the letter. The last number tells how many characters of the pattern follow the letter. -/
structure Form where
  leftAligned : Bool
  width : Nat
  precision : Option Nat
  letter : Char
  remaining : Nat
  deriving DecidableEq, Repr

namespace Form

def isFlag (c : Char) : Bool :=
  "-+ #0".toList.contains c

/-- A number at the beginning of a text, nought if there is none, and what follows. A star would take the number from the record, which has none to give. -/
private def readNumber (limit : Nat) (failure : Text) : Text → Except Error (Nat × Text)
  | '*' :: _ => .error .badArgument
  | text =>
    let digits := text.takeWhile Char.isDigit
    if limit < Text.numeralValue digits then .error (.badShape failure)
    else .ok (Text.numeralValue digits, text.drop digits.length)

private def readPrecision : Text → Except Error (Option Nat × Text)
  | '.' :: rest => (readNumber 2147483647 "precision too big" rest).map fun (n, rest) => (some n, rest)
  | text => .ok (none, text)

private def dropSize : Text → Text
  | c :: rest => if c = 'h' || c = 'l' || c = 'L' then rest else c :: rest
  | [] => []

def read (text : Text) : Except Error Form := do
  let flags := text.takeWhile isFlag
  let (width, rest) ← readNumber 9223372036854775807 "width too big" (text.drop flags.length)
  let (precision, rest) ← readPrecision rest
  match dropSize rest with
  | [] => throw (.badShape "incomplete format")
  | letter :: rest => return ⟨flags.contains '-', width, precision, letter, rest.length⟩

/-! ### Writing a field -/

/-- Widths from which on a line does not fit into memory. -/
def widthLimit : Nat := 1000000000

def fill (form : Form) (text : Text) : Except Error Text :=
  if widthLimit ≤ form.width then .error .outOfMemory
  else
    let blanks := List.replicate (form.width - text.length) ' '
    .ok (if form.leftAligned then text ++ blanks else blanks ++ text)

def fit (form : Form) (text : Text) : Except Error Text :=
  form.fill (match form.precision with
    | none => text
    | some n => text.take n)

/-- The failure of a letter that says nothing, with the place of the letter in a pattern of some length. -/
def unknownLetter (length : Nat) (form : Form) : Error :=
  let shown := if 31 ≤ form.letter.toNat && form.letter.toNat ≤ 126 then form.letter else '?'
  .badShape ("unsupported format character '" ++ [shown] ++ "' (0x" ++ Text.hexDigits 1 form.letter.toNat ++
    ") at index " ++ Text.ofNat (length - form.remaining - 1))

def isNumeric (letter : Char) : Bool :=
  "diouxXeEfFgG".toList.contains letter

/-- Writes a field or the whole record. Neither is a number. -/
def write (length : Nat) (form : Form) (value : Value) : Except Error Text := do
  if form.letter = 's' then form.fit (← value.printed)
  else if form.letter = 'r' then form.fit (← value.shown)
  else if form.letter = 'a' then form.fit (Text.asciiForm (← value.shown))
  else if form.letter = 'c' then
    match value.text? with
    | some [c] => form.fill [c]
    | _ => throw .badArgument
  else if isNumeric form.letter then throw .badArgument
  else throw (form.unknownLetter length)

end Form

/-! ### Pieces -/

/-- A piece of a pattern: a character, a directive with the name of a field or without, or a name that does not end. -/
inductive Piece where
  | character (c : Char)
  | directive (field : Option Text) (form : Except Error Form)
  | unclosed

namespace Piece

/-- A name up to the parenthesis that closes it, and what follows it. Parentheses in the name come in pairs; so many are open. -/
def readName : Nat → Text → Option (Text × Text)
  | _, [] => none
  | 0, ')' :: rest => some ([], rest)
  | opened + 1, ')' :: rest => (readName opened rest).map fun (name, rest) => (')' :: name, rest)
  | opened, '(' :: rest => (readName (opened + 1) rest).map fun (name, rest) => ('(' :: name, rest)
  | opened, c :: rest => (readName opened rest).map fun (name, rest) => (c :: name, rest)

/-- The directive behind a percent sign, and how many characters belong to it. One that cannot be read takes everything. -/
def read (text : Text) : Piece × Nat :=
  let withForm (field : Option Text) (rest : Text) : Piece × Nat :=
    match Form.read rest with
    | .ok form => (directive field (.ok form), text.length - form.remaining)
    | .error error => (directive field (.error error), text.length)
  match text with
  | '%' :: _ => (character '%', 1)
  | '(' :: rest =>
    match readName 0 rest with
    | none => (unclosed, text.length)
    | some (name, rest) => withForm (some name) rest
  | _ => withForm none text

def ofText : Nat → Text → List Piece
  | _, [] => []
  | skipped + 1, _ :: rest => ofText skipped rest
  | 0, '%' :: rest => (read rest).1 :: ofText (read rest).2 rest
  | 0, c :: rest => character c :: ofText 0 rest

/-- Writes pieces of a pattern of some length. A directive without a name stands for the whole record, unless some of it was written before. -/
def writeAll (length : Nat) (coloured : Bool) (line : LogLine) (begun : Bool) : List Piece → Except Error Text
  | [] => .ok []
  | character c :: pieces => (writeAll length coloured line begun pieces).map (c :: ·)
  | directive (some name) form :: pieces =>
    match line.field? coloured name with
    | none => .error (.badShape ("Formatting field not found in record: " ++ Text.shown name))
    | some value => do
      let text ← (← form).write length value
      return text ++ (← writeAll length coloured line true pieces)
  | directive none form :: pieces => do
    let form ← form
    if begun then throw .badArgument
    let text ← form.write length line.whole
    return text ++ (← writeAll length coloured line true pieces)
  | unclosed :: _ => .error (.badShape "incomplete format key")

end Piece

/-! ### Layouts -/

structure Layout where
  pattern : Text
  coloured : Bool
  deriving DecidableEq, Repr

namespace Layout

/-- The letters of complete directives, in both cases; an `s` may be long, and an `i` may have no dot or have one as a capital. -/
def isDirectiveLetter (c : Char) : Bool :=
  "diouxefgcrsaDIOUXEFGCRSA%ſıİ".toList.contains c

private def afterCount? : Text → Option Text
  | '*' :: rest => some rest
  | text => if (text.takeWhile Text.isDigit).isEmpty then none else some (text.dropWhile Text.isDigit)

/-- Whether a text begins with a complete directive that has a name of word characters. -/
def isNamedDirective (text : Text) : Bool :=
  match Text.after? "(" text with
  | none => false
  | some inner =>
    let name := inner.takeWhile Text.isWord
    match Text.after? ")" (inner.drop name.length) with
    | none => false
    | some rest =>
      let rest := rest.dropWhile Form.isFlag
      let rest := (afterCount? rest).getD rest
      let rest := ((Text.after? "." rest).bind afterCount?).getD rest
      !name.isEmpty && rest.head?.any isDirectiveLetter

def hasDirective : Text → Bool
  | [] => false
  | c :: rest => (c = '%' && isNamedDirective rest) || hasDirective rest

/-- A layout needs at least one complete directive. The empty pattern stands for the message alone. -/
def make (pattern : Text) (coloured : Bool) : Except Error Layout :=
  if pattern.isEmpty then .ok ⟨"%(message)s", coloured⟩
  else if hasDirective pattern then .ok ⟨pattern, coloured⟩
  else .error (.badShape ("Invalid format '" ++ pattern ++ "' for '%' style"))

/-- A layout with a pattern that is given as a value; what counts as false is as good as the empty pattern. -/
def ofValue (pattern : Value) (coloured : Bool) : Except Error Layout := do
  if pattern.truthy then make (← pattern.asText) coloured else make [] coloured

def write (layout : Layout) (line : LogLine) : Except Error Text :=
  Piece.writeAll layout.pattern.length layout.coloured line false (Piece.ofText 0 layout.pattern)

end Layout

end SqlCompose
