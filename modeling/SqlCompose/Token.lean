import SqlCompose.Numeral
import SqlCompose.Text.Word
import SqlCompose.Quoted

/-!
# Tokens of SQL text

Outside quotes three kinds of token mean something to the library: the marker that stands for a value not yet numbered, the placeholder, a dollar sign and the longest run of digits after it, and the schema token, the word `$schema` with digits after it, up to a character that is no word character. A quoted segment is one token, and every other character stands for itself. Reading a text into tokens and writing them out again changes nothing, so an operation on SQL text is a rewriting of tokens.
-/

namespace SqlCompose

inductive Token where
  | quoted (text : Text)
  | marker
  | placeholder (digits : Text)
  | schema (digits : Text)
  | plain (c : Char)
  deriving DecidableEq, Repr

namespace Token

def source : Token → Text
  | quoted text => text
  | marker => "?"
  | placeholder digits => '$' :: digits
  | schema digits => "$schema" ++ digits
  | plain c => [c]

/-- The token that a dollar sign begins, and the number of characters it takes after the dollar sign. -/
def afterDollar? (rest : Text) : Option (Token × Nat) :=
  let digits := rest.takeWhile Text.isDigit
  if digits.isEmpty then
    match Text.after? "schema" rest with
    | none => none
    | some tail =>
      let index := tail.takeWhile Text.isDigit
      match tail.drop index.length with
      | [] => some (schema index, 6 + index.length)
      | c :: _ => if Text.isWord c then none else some (schema index, 6 + index.length)
  else some (placeholder digits, digits.length)

/-- The tokens of an unquoted text. The characters that a dollar token takes are plain characters when read on their own, so they are dropped from what the rest of the text reads as. -/
def ofUnquoted : Text → List Token
  | [] => []
  | '?' :: rest => marker :: ofUnquoted rest
  | '$' :: rest =>
    match afterDollar? rest with
    | some (token, taken) => token :: (ofUnquoted rest).drop taken
    | none => plain '$' :: ofUnquoted rest
  | c :: rest => plain c :: ofUnquoted rest

def read (text : Text) : List Token :=
  (Quoted.segments text).flatMap fun segment =>
    if segment.quoted then [quoted segment.text] else ofUnquoted segment.text

def write (tokens : List Token) : Text :=
  tokens.flatMap source

/-! ### Markers and placeholders -/

def isMarker : Token → Bool
  | marker => true
  | _ => false

def index? : Token → Option Nat
  | placeholder digits => some (Text.numeralValue digits)
  | _ => none

def countMarkers (text : Text) : Nat :=
  (read text).countP isMarker

/-- The numbers of the placeholders outside quotes, in the order of the text. -/
def placeholders (text : Text) : List Nat :=
  (read text).filterMap index?

/-! ### Numbers that are read and written -/

/-- Fails at the first placeholder whose number cannot be read. -/
def checkNumerals (text : Text) : Except Error Unit :=
  (read text).forM fun
    | placeholder digits => (Numeral.read digits).map fun _ => ()
    | _ => .ok ()

def readPlaceholders (text : Text) : Except Error (List Nat) := do
  checkNumerals text
  return placeholders text

/-- The placeholder with a given number. A number below nought keeps its sign, and what results is then no placeholder. -/
def numbered (index : Int) : Text :=
  '$' :: Text.ofInt index

def numbersFrom (start : Int) : Nat → List Int
  | 0 => []
  | count + 1 => start :: numbersFrom (start + 1) count

end Token

end SqlCompose
