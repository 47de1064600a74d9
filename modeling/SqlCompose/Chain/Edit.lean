import SqlCompose.Condition
import SqlCompose.Numbering

/-!
# Changing a chain

A chain changes by one link at a time. The word for the connective is read before the condition is looked at, except that the statement inside an `EXISTS` comes first. Every other form of condition is a text with markers and its values.

Columns, search texts and connectives are given as values and printed into the condition.
-/

namespace SqlCompose.Chain

inductive Edit where
  | link (connective : Value) (condition : Condition) (values : List Value)
  | existence (negated : Bool) (connective : Value) (condition : Condition) (values : List Value)
  | clear

/-- The chain with a condition behind it; a vacant condition leaves it as it is. -/
def link (connective : Value) (condition : Condition) (values : List Value) (chain : Chain) : Build Chain := do
  if condition.isVacant values then return chain
  else
    let connective ← Connective.ofValue connective
    return chain.append connective (← condition.toPredicate values)

/-- The predicate that holds if a statement gives any row, or if it gives none. -/
def existence (negated : Bool) (condition : Condition) (values : List Value) : Build Predicate := do
  let inner ← condition.toPredicate values
  let opening : Text := if negated then "NOT EXISTS (" else "EXISTS ("
  Predicate.make (.plain (opening ++ inner.text.printed ++ ")")) inner.values

namespace Edit

def apply (chain : Chain) : Edit → Build Chain
  | .link connective condition values => chain.link connective condition values
  | .existence negated connective condition values => do
    chain.link connective (.predicate (← Chain.existence negated condition values)) []
  | .clear => return {}

def applyAll (chain : Chain) (edits : List Edit) : Build Chain :=
  edits.foldlM apply chain

/-! ### Forms of condition -/

def ofText (connective : Value) (text : Text) (values : List Value) : Edit :=
  .link connective (.text (.plain text)) values

/-- A column is one of some values, or none of them. No value at all leaves a condition that never holds, or that always does, and the column plays no role. -/
def membership (negated : Bool) (column : Value) (values : List Value) (connective : Value) : Except Error Edit := do
  if values.isEmpty then return ofText connective (if negated then "1 = 1" else "1 = 0" : Text) []
  else
    let keyword : Text := if negated then " NOT IN (" else " IN ("
    return ofText connective
      ((← column.printed) ++ keyword ++ Text.join ", " (values.map fun _ => "?") ++ ")") values

def range (negated : Bool) (column low high connective : Value) : Except Error Edit := do
  let keyword : Text := if negated then " NOT BETWEEN ? AND ?" else " BETWEEN ? AND ?"
  return ofText connective ((← column.printed) ++ keyword) [low, high]

def absence (negated : Bool) (column connective : Value) : Except Error Edit := do
  let keyword : Text := if negated then " IS NOT NULL" else " IS NULL"
  return ofText connective ((← column.printed) ++ keyword) []

/-- A column matches a pattern, or not, with regard to case or without. -/
def pattern (negated anyCase : Bool) (column pattern connective : Value) : Except Error Edit := do
  let keyword : Text := match negated, anyCase with
    | false, false => " LIKE ?"
    | false, true => " ILIKE ?"
    | true, false => " NOT LIKE ?"
    | true, true => " NOT ILIKE ?"
  return ofText connective ((← column.printed) ++ keyword) [pattern]

/-! ### Search -/

def containing (anyCase : Bool) (field query connective : Value) : Except Error Edit := do
  pattern false anyCase field (.text ("%" ++ (← query.printed) ++ "%")) connective

/-- A field contains every word of a text; one link for each word. -/
def containingWords (anyCase : Bool) (field query connective : Value) : Except Error (List (Except Error Edit)) := do
  return (← query.words).map fun word => containing anyCase field word connective

/-- A field matches the beginnings of all words of a text under a search configuration. -/
def matchingWords (field query configuration connective : Value) : Except Error Edit := do
  let beginnings ← (← query.words).mapM fun word => word.printed.map fun (text : Text) => text ++ ":*"
  return ofText connective ("to_tsvector(?, " ++ (← field.printed) ++ ") @@ to_tsquery(?, ?)")
    [configuration, configuration, .text (Text.join " & " beginnings)]

/-- A field is similar to a text, by an index on similarity and above a threshold. -/
def similar (field query threshold connective : Value) : Build Edit := do
  let field ← field.printed
  let both ← applyAll {} [
    ofText (.text "AND") (field ++ " % ?") [query],
    ofText (.text "AND") ("similarity(" ++ field ++ ", ?) >= ?") [query, threshold]]
  return .link connective (.chain both) []

end Edit

end SqlCompose.Chain
