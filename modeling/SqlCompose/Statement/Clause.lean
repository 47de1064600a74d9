import SqlCompose.Compaction
import SqlCompose.Statement.Restriction

/-!
# Clauses

A statement is a sequence of clauses. Each clause is rendered with its placeholders numbered from the index after the last one before it, so the numbers run through the statement in the order of the text, and the values stand in the order of the numbers.
-/

namespace SqlCompose

/-- A clause: from the index of its first placeholder to its text and values, or nothing if it is left out. -/
abbrev Clause := Int → Build (Option Numbered)

namespace Clause

def queryLogger : Text := "querykit.query_builder"

def plain (text : Build Text) : Clause :=
  fun start => return some ⟨← text, [], start⟩

def optional (text : Build (Option Text)) : Clause :=
  fun start => return (← text).map fun text => ⟨text, [], start⟩

/-- The texts and the values of clauses in order, numbered from a start. -/
def sequence (start : Int) : List Clause → Build (List Text × List Value)
  | [] => return ([], [])
  | clause :: rest => do
    match ← clause start with
    | none => sequence start rest
    | some first =>
      let (texts, values) ← sequence first.next rest
      return (first.text :: texts, first.values ++ values)

def assemble (clauses : List Clause) : Build Fragment := do
  let (texts, values) ← sequence 1 clauses
  return ⟨.plain (Text.join "\n" texts), values⟩

/-- Conditions behind a keyword; without conditions the clause is left out. -/
def conditions (keyword : Text) (restriction : Restriction) : Clause := fun start => do
  let rendered ← restriction.render start
  if rendered.text.isEmpty then return none
  else return some { rendered with text := keyword ++ " " ++ rendered.text }

end Clause

/-! ### Lists of columns -/

/-- An entry of a column list: a reference to be quoted, or an expression that is written as it is. -/
structure Field where
  value : Value
  raw : Bool
  deriving Repr

namespace Field

def render (flavor : Flavor) (field : Field) : Except Error Value :=
  if field.raw then .ok field.value else (Identifier.quoteColumnValue flavor field.value).map .text

/-- The texts of entries. All references are quoted before any expression is looked at. -/
def renderAll (flavor : Flavor) (fields : List Field) : Except Error (List Text) := do
  Value.asTexts (← fields.mapM (render flavor))

end Field

def Clause.returning (flavor : Flavor) (fields : List Field) : Clause :=
  .optional do
    if fields.isEmpty then return none
    else return some ("RETURNING " ++ Text.join ", " (← Field.renderAll flavor fields))

/-! ### Order and paging -/

/-- One entry of an order: what to order by, usually a column reference, and the direction. -/
structure OrderBy where
  field : Value
  direction : Direction := .ascending
  deriving Repr

namespace OrderBy

def render (flavor : Flavor) (order : OrderBy) : Except Error Text :=
  (Identifier.quoteColumnValue flavor order.field).map fun column => column ++ " " ++ Keyword.word order.direction

def renderAll (flavor : Flavor) (orders : List OrderBy) : Except Error (List Text) :=
  orders.mapM (render flavor)

end OrderBy

def Clause.orderBy (flavor : Flavor) (orders : List OrderBy) : Clause :=
  .optional do
    if orders.isEmpty then return none
    else return some ("ORDER BY " ++ Text.join ", " (← OrderBy.renderAll flavor orders))

structure Paging where
  limit : Option Nat := none
  offset : Option Nat := none
  deriving DecidableEq, Repr

def Paging.render (paging : Paging) : List (Except Error Text) :=
  let line (keyword : Text) (n : Nat) : Except Error Text := (Numeral.write n).map (keyword ++ ·)
  (paging.limit.map (line "LIMIT ")).toList ++ (paging.offset.map (line "OFFSET ")).toList

/-! ### Finishing a statement -/

/-- A finished statement: schemas are put in, equal values share a placeholder if that is asked for, and the values are copied. -/
def Settings.finish (settings : Settings) (kind : StatementKind) (render : Build Fragment)
    (compact deep : Option Bool) : Build BuiltQuery := do
  let fragment ← render
  let text ← Identifier.substituteSchemas settings.schemas fragment.text.content
  let substituted : Fragment := ⟨.plain text, fragment.values⟩
  let sameness := if deep.getD settings.deep.truthy then Sameness.deep else .shallow
  let final ← if compact.getD settings.compact.truthy then substituted.compact sameness else pure substituted
  Build.log Clause.queryLogger .debug
    ("Built " ++ Keyword.word kind ++ " query with " ++ Text.ofNat final.values.length ++ " parameter(s)")
  BuiltQuery.ofParts final.text.toValue final.values

/-! ### Children -/

/-- A statement inside another, as the outer one sees it: how it is built, and the columns it is known to give. -/
structure Child where
  build : Build BuiltQuery
  columns : Except Error (List Value)

end SqlCompose
