import SqlCompose.Fragment
import SqlCompose.Keyword
import SqlCompose.Value.Reading

/-!
# Predicates and built queries

A predicate is a condition whose values are not numbered yet: its text has one marker for each value, and this is checked when it is made. A built query is finished text with numbered placeholders. Both hold copies of the values they are made from, and both are records among the values.

What is built has a text. A built query that a caller makes by hand is not checked, and may have anything in its place; it then fails where the text is read.
-/

namespace SqlCompose

structure Predicate where
  text : Wording
  values : List Value
  deriving Repr

/-- The result of building: text with placeholders, and their values. -/
structure BuiltQuery where
  text : Value
  values : List Value
  deriving Repr

namespace Predicate

def make (text : Wording) (values : List Value) : Build Predicate := do
  let values ← Value.checkAll values
  let markers := Token.countMarkers text.content
  if markers = values.length then return ⟨text, values⟩
  else throw (.mismatch text.printed markers values.length)

def combine (connective : Connective) (left right : Predicate) : Build Predicate :=
  make (.plain ("(" ++ left.text.printed ++ " " ++ Keyword.word connective ++ " " ++ right.text.printed ++ ")"))
    (left.values ++ right.values)

/-- The predicate numbered from a start; it keeps its values, uncopied. -/
def render (predicate : Predicate) (start : Int) : Except Error Numbered :=
  (bindMarkers predicate.text.content start).map fun (text, next) => ⟨text, predicate.values, next⟩

/-! ### Predicates among values -/

def toValue (predicate : Predicate) : Build Value := do
  let values ← Build.freshLabel
  return .record (← Build.freshLabel) .predicate [predicate.text.toValue, .tuple values predicate.values]

def ofValue? : Value → Option Predicate
  | .record _ .predicate [text, .tuple _ values] => (Wording.ofValue? text).map (⟨·, values⟩)
  | _ => none

end Predicate

namespace BuiltQuery

/-- A built query over copies of values, whatever they are. -/
def ofParts (text : Value) (values : List Value) : Build BuiltQuery := do
  return ⟨text, ← Value.copyAll values⟩

def make (text : Text) (values : List Value) : Build BuiltQuery :=
  ofParts (.text text) values

def wording (query : BuiltQuery) : Except Error Wording :=
  match Wording.ofValue? query.text with
  | some wording => .ok wording
  | none => .error .badArgument

def toFragment (query : BuiltQuery) : Except Error Fragment :=
  query.wording.map (⟨·, query.values⟩)

/-- One thing put in front of another: texts, bytes, lists, tuples and whole numbers go together with their like. -/
def joined : Value → Value → Build Value
  | .list _ items, .list _ items' => return .list (← Build.freshLabel) (items ++ items')
  | .tuple _ items, .tuple _ items' => return .tuple (← Build.freshLabel) (items ++ items')
  | .bytes content, .bytes content' => return .bytes (content ++ content')
  | .int m, .int n => return .int (m + n)
  | opening, rest => do return .text ((← opening.asText) ++ (← rest.asText))

/-- The query with something in front of its text, over fresh copies of its values. -/
def prepend (opening : Value) (query : BuiltQuery) : Build BuiltQuery := do
  ofParts (← joined opening query.text) query.values

def toPredicate (query : BuiltQuery) : Build Predicate := do
  Predicate.make (.plain (← (← query.toFragment).unbind)) query.values

/-! ### Built queries among values -/

def toValue (query : BuiltQuery) : Build Value := do
  let values ← Build.freshLabel
  return .record (← Build.freshLabel) .builtQuery [query.text, .tuple values query.values]

def ofValue? : Value → Option BuiltQuery
  | .record _ .builtQuery [text, .tuple _ values] => some ⟨text, values⟩
  | _ => none

end BuiltQuery

end SqlCompose
