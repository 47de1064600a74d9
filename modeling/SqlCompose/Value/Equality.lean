import SqlCompose.Value
import SqlCompose.Value.Number
import SqlCompose.Value.Moment

/-!
# Equality of values

Values are equal when they stand for the same thing: numbers of any type by the number, an array of bytes like the bytes in it, an entry of a list of words like its word, lists and tuples item by item, records of one kind field by field, dictionaries by key whatever their order. Inside a container an item is first compared by identity, so a shared NaN equals itself there, while on its own it does not. A signalling NaN cannot be compared with a number at all, and then the answer is `none`.

A look-up by key asks for more than equality: two times of day that are equal count as one key only if they name the same moment.
-/

namespace SqlCompose.Value

def isNumeric : Value → Bool
  | bool _ | int _ | float _ | floatNaN _ | decimal _ | decimalNaN _ _ => true
  | _ => false

/-- A signalling NaN: its text has an `s` in front of the `NaN`. -/
def isSignalling : Value → Bool
  | decimalNaN _ spelling => spelling.contains 's'
  | _ => false

/-- What a value that holds no others stands for. -/
inductive Worth where
  | null
  | number (number : Number)
  | text (t : Text)
  | bytes (content : List UInt8)
  | date (iso : Text)
  | moment (universal : Int)
  | localDateTime (iso : Text)
  | clock (seconds : Int) (microsecond : Nat)
  | localClock (time : ClockTime)
  | duration (days seconds microseconds : Int)
  | uuid (text : Text)
  | unbindable (kind : Unbindable) (label? : Option Label)
  | object (label : Label)
  deriving DecidableEq

/-- A date and time stands for its moment, and without an offset for itself. -/
def Worth.ofDateTime (iso : Text) : Worth :=
  match universalMoment? iso with
  | some universal => moment universal
  | none => localDateTime iso

/-- A time of day stands for its universal time, the offset rounded down to seconds, and without an offset for itself. -/
def Worth.ofTime (time : ClockTime) : Worth :=
  match time.offset with
  | some offset => clock (time.universalSeconds offset) time.microsecond
  | none => localClock time

/-- A NaN and a container stand for nothing else; one callback is no other. -/
def worth? : Value → Option Worth
  | null => some .null
  | bool b => some (.number (Number.ofInt (if b then 1 else 0)))
  | int n => some (.number (Number.ofInt n))
  | float spelling => some (.number (Number.ofBinary spelling))
  | decimal spelling => some (.number (Number.ofDecimal spelling))
  | text t => some (.text t)
  | entry e => some (.text e.word)
  | bytes content | byteArray _ content => some (.bytes content)
  | date iso => some (.date iso)
  | dateTime iso => some (.ofDateTime iso)
  | time iso => some (.ofTime (ClockTime.ofText iso))
  | duration days seconds microseconds => some (.duration days seconds microseconds)
  | uuid spelling => some (.uuid spelling)
  | unbindable label kind => some (.unbindable kind (if kind = .callback then some label else none))
  | object label _ => some (.object label)
  | floatNaN _ | decimalNaN _ _ | list _ _ | tuple _ _ | dict _ _ | record _ _ _ => none

def identical (left right : Value) : Bool :=
  match left.label?, right.label? with
  | some a, some b => a == b
  | _, _ => false

/-- Equality of two values of which at least one is no container. -/
def equalScalar (left right : Value) : Option Bool :=
  if left.isNumeric && right.isNumeric && (left.isSignalling || right.isSignalling) then none
  else some (match left.worth?, right.worth? with
    | some a, some b => a == b
    | _, _ => false)

def andThen (first : Option Bool) (second : Option Bool) : Option Bool :=
  match first with
  | some true => second
  | other => other

mutual

/-- Whether two equal values are also found under one key: the times of day in them name the same moments. -/
def keyedAlike : Value → Value → Bool
  | time a, time b => sameClockMoment a b
  | tuple _ items, tuple _ items' | tuple _ items, record _ _ items' => allKeyedAlike items items'
  | record _ _ items, tuple _ items' | record _ _ items, record _ _ items' => allKeyedAlike items items'
  | _, _ => true

def allKeyedAlike : List Value → List Value → Bool
  | item :: items, item' :: items' => keyedAlike item item' && allKeyedAlike items items'
  | _, _ => true

end

mutual

def equal : Value → Value → Option Bool
  | list _ items, list _ items' => if items.length = items'.length then equalItems items items' else some false
  | tuple _ items, tuple _ items' | tuple _ items, record _ .rendered items' => equalItems items items'
  | record _ .rendered items, tuple _ items' => equalItems items items'
  | record _ kind fields, record _ kind' fields' => if kind = kind' then equalItems fields fields' else some false
  | dict _ entries, dict _ entries' =>
    if entries.length = entries'.length then equalEntries entries entries' else some false
  | left, right => equalScalar left right

/-- Item by item from the left, up to the first difference; two runs of different length differ. -/
def equalItems : List Value → List Value → Option Bool
  | [], [] => some true
  | item :: items, item' :: items' =>
    andThen (if identical item item' then some true else equal item item') (equalItems items items')
  | _, _ => some false

/-- Every entry has its key in the other dictionary, with an equal value. -/
def equalEntries : List (Value × Value) → List (Value × Value) → Option Bool
  | [], _ => some true
  | (key, value) :: entries, entries' =>
    match entries'.find? fun entry =>
        identical key entry.1 || (equal key entry.1 == some true && keyedAlike key entry.1) with
    | none => some false
    | some (_, value') =>
      andThen (if identical value value' then some true else equal value value') (equalEntries entries entries')

end

/-- The comparison that a look-up makes: one object, or one equal key. -/
def same (left right : Value) : Bool :=
  identical left right || (equal left right == some true && keyedAlike left right)

/-! ### Keys -/

mutual

/-- Whether a value can be a key: no container that can change, at any depth, and no signalling NaN. -/
def hashable : Value → Bool
  | list _ _ | dict _ _ | byteArray _ _ => false
  | tuple _ items | record _ _ items => allHashable items
  | unbindable _ kind => kind != .set
  | value => !value.isSignalling

def allHashable : List Value → Bool
  | [] => true
  | item :: items => hashable item && allHashable items

end

/-- The entries with one more: an equal key keeps its place and takes the new value. -/
def setEntry (key value : Value) : List (Value × Value) → List (Value × Value)
  | [] => [(key, value)]
  | (key', value') :: entries =>
    if same key' key then (key', value) :: entries else (key', value') :: setEntry key value entries

def entry? (key : Value) (entries : List (Value × Value)) : Option Value :=
  (entries.find? fun entry => same entry.1 key).map (·.2)

end SqlCompose.Value
