import SqlCompose.Token
import SqlCompose.Wording

/-!
# Fragments

A fragment is a piece of SQL text with the values of its placeholders; its placeholders are numbered from one, and the value of the placeholder `$k` is the k-th of its values. Fragments are put one after another by shifting the numbers of each past the values of those before it. Inside a predicate the numbers are not known yet, and markers stand in for them.
-/

namespace SqlCompose

structure Fragment where
  text : Wording
  values : List Value
  deriving Repr

/-- Something numbered from some index, and the index after its last. -/
structure Numbered (T : Type := Text) where
  text : T
  values : List Value
  next : Int
  deriving Repr

/-! ### Markers -/

def Token.bind (start : Int) : List Token → Text
  | [] => []
  | marker :: rest => numbered start ++ bind (start + 1) rest
  | token :: rest => token.source ++ bind start rest

def boundMarkers (text : Text) (start : Int) : Text × Int :=
  (Token.bind start (Token.read text), start + Token.countMarkers text)

/-- Numbers the markers of a text from a start, unless one of the numbers cannot be written. -/
def bindMarkers (text : Text) (start : Int) : Except Error (Text × Int) := do
  Numeral.check (Token.numbersFrom start (Token.countMarkers text))
  return boundMarkers text start

def Token.unnumbered : Token → Text
  | placeholder _ => "?"
  | token => token.source

def Token.shifted (offset : Int) : Token → Text
  | placeholder digits => numbered (Text.numeralValue digits + offset)
  | token => token.source

namespace Fragment

def misfit (fragment : Fragment) (found : Nat) : Error :=
  .mismatch fragment.text.printed found fragment.values.length

/-- The text of a fragment with markers for its placeholders, which must be `$1`, `$2` and so on in this order, one for each value. -/
def unbind (fragment : Fragment) : Except Error Text := do
  let indices ← Token.readPlaceholders fragment.text.content
  if indices = (List.range fragment.values.length).map (· + 1) then
    return (Token.read fragment.text.content).flatMap Token.unnumbered
  else throw (fragment.misfit indices.length)

/-! ### Shifting -/

def highest (indices : List Nat) : Nat :=
  indices.foldl max 0

/-- The text of a fragment numbered from a start instead of one. A fragment that stays where it is keeps its wording, however its numbers are written. -/
def shiftedText (fragment : Fragment) (start : Int) : Wording :=
  if start = 1 then fragment.text
  else .plain ((Token.read fragment.text.content).flatMap (Token.shifted (start - 1)))

/-- The numbers that are written when a fragment is numbered from a start; nothing is written where it stays as it is. -/
def shiftedNumbers (fragment : Fragment) (start : Int) : List Int :=
  if start = 1 then [] else (Token.placeholders fragment.text.content).map fun (index : Nat) => index + (start - 1)

/-- The fragment with its placeholders numbered from a start instead of one. The highest must belong to the last value. -/
def renumber (fragment : Fragment) (start : Int) : Except Error (Numbered Wording) := do
  let last := highest (← Token.readPlaceholders fragment.text.content)
  if last = fragment.values.length then
    Numeral.check (fragment.shiftedNumbers start)
    return ⟨fragment.shiftedText start, fragment.values, start + fragment.values.length⟩
  else throw (fragment.misfit last)

structure Merged where
  texts : List Wording
  values : List Value
  next : Int
  deriving Repr

/-- Renumbers fragments in order, each from the index after the one before. A fragment is read when its turn comes. -/
def mergeFrom {α : Type} (fragment : α → Except Error Fragment) (start : Int) : List α → Except Error Merged
  | [] => .ok ⟨[], [], start⟩
  | source :: rest => do
    let first ← (← fragment source).renumber start
    let others ← mergeFrom fragment first.next rest
    return ⟨first.text :: others.texts, first.values ++ others.values, others.next⟩

def merge (start : Int) (fragments : List Fragment) : Except Error Merged :=
  mergeFrom .ok start fragments

end Fragment

end SqlCompose
