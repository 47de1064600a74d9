import SqlCompose.Text.Digit
import SqlCompose.Text.Printable

/-!
# Quoted forms of text

A text is shown in single quotes, or in double quotes if it has a single quote and no double one. Characters that would not show as themselves are escaped by a letter or by their code point.
-/

namespace SqlCompose

namespace Text

/-- Hexadecimal digits with noughts in front up to a width. -/
def hexDigits (width n : Nat) : Text :=
  let digits := Nat.toDigits 16 n
  List.replicate (width - digits.length) '0' ++ digits

def padded (width n : Nat) : Text :=
  let digits := ofNat n
  List.replicate (width - digits.length) '0' ++ digits

def codePoint (c : Char) : Text :=
  if c.toNat < 0x100 then "\\x" ++ hexDigits 2 c.toNat
  else if c.toNat < 0x10000 then "\\u" ++ hexDigits 4 c.toNat
  else "\\U" ++ hexDigits 8 c.toNat

def escaped (quote c : Char) : Text :=
  if c = quote || c = '\\' then ['\\', c]
  else if c = '\n' then "\\n"
  else if c = '\r' then "\\r"
  else if c = '\t' then "\\t"
  else if isPrintable c then [c]
  else codePoint c

/-- Single quotes, unless the text has one and has no double quote. -/
def quoteFor (hasSingle hasDouble : Bool) : Char :=
  if hasSingle && !hasDouble then '"' else '\''

def shown (text : Text) : Text :=
  let quote := quoteFor (text.contains '\'') (text.contains '"')
  quote :: text.flatMap (escaped quote) ++ [quote]

/-- A quoted form in which only ASCII characters stand for themselves. -/
def asciiForm (form : Text) : Text :=
  form.flatMap fun c => if c.toNat < 128 then [c] else codePoint c

end Text

end SqlCompose
