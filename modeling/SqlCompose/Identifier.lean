import SqlCompose.Keyword
import SqlCompose.Token
import SqlCompose.Value.Reading

/-!
# Identifiers

Names are put in the quotes of a flavor, one segment at a time; a closing quote inside a name is written twice. The wildcard, a schema token and a name that already begins and ends with the quotes stay as they are. A reference is cut into segments at the dots, and a column reference may carry an alias after the word `AS`.
-/

namespace SqlCompose

namespace Flavor

def quotes : Flavor → Char × Char
  | mysql => ('\x60', '\x60')
  | mssql => ('[', ']')
  | postgres | sqlite | oracle => ('"', '"')

end Flavor

namespace Identifier

/-- `$schema` with any digits after it; one line break may follow. -/
def isSchemaToken (name : Text) : Bool :=
  match (Text.after? "$schema" name).map (·.dropWhile Text.isDigit) with
  | some [] | some ['\n'] => true
  | _ => false

def isQuoted (flavor : Flavor) (name : Text) : Bool :=
  2 ≤ name.length && name.head? == some flavor.quotes.1 && name.getLast? == some flavor.quotes.2

def enclose (flavor : Flavor) (name : Text) : Text :=
  flavor.quotes.1 :: Text.double flavor.quotes.2 name ++ [flavor.quotes.2]

/-- One segment of a reference, quoted where that is needed. -/
def quote (flavor : Flavor) (name : Text) : Text :=
  if name = "*" || isSchemaToken name || isQuoted flavor name then name else enclose flavor name

/-- The segments between the dots of a reference, without the blanks around them; none may be empty. -/
def segments (reference : Text) : Except Error (List Text) :=
  let parts := (Text.split '.' (Text.trim reference)).map Text.trim
  if parts.any List.isEmpty then .error (.emptySegment reference) else .ok parts

def quoteTable (flavor : Flavor) (reference : Text) : Except Error Text :=
  (segments reference).map fun parts => Text.join "." (parts.map (quote flavor))

/-! ### Aliases -/

/-- What follows the word `AS` and blanks at the beginning of a text, if it stays on one line. -/
def aliasAfterAs? : Text → Option Text
  | a :: s :: c :: rest =>
    let name := (c :: rest).dropWhile Text.isBlank
    if (a = 'a' || a = 'A') && (s = 's' || s = 'S' || s = 'ſ') && Text.isBlank c && !name.isEmpty && !name.contains '\n'
    then some name
    else none
  | _ => none

/-- Cuts a text at the first blanks with `AS` and an alias after them; what stands before them must not be empty and is read on one line. The first argument is what was passed over already, latest first. -/
def splitAliasAfter (before : Text) : Text → Option (Text × Text)
  | [] => none
  | c :: rest =>
    let alias? :=
      if Text.isBlank c && !before.isEmpty then aliasAfterAs? ((c :: rest).dropWhile Text.isBlank) else none
    match alias? with
    | some name => some (before.reverse, name)
    | none => if c = '\n' then none else splitAliasAfter (c :: before) rest

def splitAlias? (reference : Text) : Option (Text × Text) :=
  splitAliasAfter [] (Text.trim reference)

def quoteColumn (flavor : Flavor) (reference : Text) : Except Error Text :=
  match splitAlias? reference with
  | some (column, name) =>
    (quoteTable flavor column).map fun quoted => quoted ++ " AS " ++ quote flavor (Text.trim name)
  | none => quoteTable flavor reference

/-! ### References among values -/

def quoteTableValue (flavor : Flavor) (reference : Value) : Except Error Text := do
  quoteTable flavor (← reference.asReference)

def quoteColumnValue (flavor : Flavor) (reference : Value) : Except Error Text := do
  quoteColumn flavor (← reference.asReference)

def quoteColumns (flavor : Flavor) (references : List Value) : Except Error (List Text) :=
  references.mapM (quoteColumnValue flavor)

/-! ### Flavors by name -/

def quoteFor (flavor name : Value) : Except Error Text := do
  let flavor ← Flavor.ofValue flavor
  return quote flavor (← name.asText)

/-- A table quoted for a flavor that is given by a word. The reference is cut into segments before the word is read. -/
def quoteTableFor (flavor reference : Value) : Except Error Text := do
  let reference ← reference.asReference
  let _ ← segments reference
  quoteTable (← Flavor.ofValue flavor) reference

def quoteColumnFor (flavor reference : Value) : Except Error Text := do
  let reference ← reference.asReference
  let _ ← segments (((splitAlias? reference).map (·.1)).getD reference)
  quoteColumn (← Flavor.ofValue flavor) reference

/-! ### Schemas -/

/-- What a schema token stands for: the schema of its number, the first if it has none. -/
def schemaNamed (schemas : List Value) (digits : Text) : Except Error Value := do
  let index ← Numeral.read digits
  match schemas[index]? with
  | some schema => return schema
  | none => do throw (.schemaIndex index (← (Value.list 0 schemas).shown))

def withSchemas (schemas : List Value) : Token → Except Error Value
  | .schema digits => schemaNamed schemas digits
  | token => .ok (.text token.source)

def schemaText : Value → Except Error Text
  | .null => .ok []
  | schema => schema.asText

/-- An unquoted text with its schema tokens replaced. All tokens find their schemas before any is written. -/
def substituteUnquoted (schemas : List Value) (text : Text) : Except Error Text := do
  let pieces ← (Token.ofUnquoted text).mapM (withSchemas schemas)
  return (← pieces.mapM schemaText).flatten

/-- A text with its schema tokens replaced by schemas; the first token without a schema makes it fail. -/
def substituteSchemas (schemas : List Value) (text : Text) : Except Error Text := do
  let parts ← (Quoted.segments text).mapM fun segment =>
    if segment.quoted then .ok segment.text else substituteUnquoted schemas segment.text
  return parts.flatten

end Identifier

end SqlCompose
