import SqlCompose.Statement.Cte
import SqlCompose.Statement.Join

/-!
# UPDATE

Columns are assigned values or expressions. Joins hang off the table named by FROM, so they need one.
-/

namespace SqlCompose

inductive Assigned where
  | value (value : Value)
  | expression (expression : Value)
  deriving Repr

structure Update (Q : Type) where
  settings : Settings := {}
  ctes : Option (List (Cte Q)) := none
  table : Value := .null
  name : Value := .null
  assignments : List (Value × Assigned) := []
  origin : Option (Value × Value) := none
  joins : List (Join Q) := []
  filter : Restriction := .none
  returning : List Field := []
  deriving Repr

namespace Update

variable {Q R : Type}

def map (f : Q → R) (update : Update Q) : Update R :=
  { update with ctes := update.ctes.map (·.map (Cte.map f)), joins := update.joins.map (Join.map f) }

/-- Assignments from an index on, and the values they bind. -/
def assign (flavor : Flavor) (start : Int) : List (Value × Assigned) → Except Error (List Text × List Value)
  | [] => .ok ([], [])
  | (column, assigned) :: rest => do
    let quoted ← Identifier.quoteColumnValue flavor column
    match assigned with
    | .expression expression =>
      let text ← expression.printed
      let (texts, values) ← assign flavor start rest
      return ((quoted ++ " = " ++ text) :: texts, values)
    | .value value =>
      Numeral.check [start]
      let (texts, values) ← assign flavor (start + 1) rest
      return ((quoted ++ " = " ++ Token.numbered start) :: texts, value :: values)

def setClause (update : Update Q) : Clause := fun start => do
  let (texts, values) ← assign update.settings.flavor start update.assignments
  return some ⟨"SET " ++ Text.join ", " texts, values, start + values.length⟩

def targetClause (update : Update Q) : Build Text := do
  let table ← Identifier.quoteTableValue update.settings.flavor update.table
  return "UPDATE " ++ table ++ (← behind " " update.name)

def fromClause (update : Update Q) : Build (Option Text) := do
  match update.origin with
  | none => return none
  | some (table, name) =>
    return some ("FROM " ++ (← Identifier.quoteTableValue update.settings.flavor table) ++ (← behind " " name))

def render (update : Update Child) : Build Fragment := do
  Build.require update.table.truthy Clause.queryLogger .updateTable
  Build.require (!update.assignments.isEmpty) Clause.queryLogger .updateAssignments
  Build.require (update.origin.isSome || update.joins.isEmpty) Clause.queryLogger .updateSource
  Clause.assemble <|
    [.with update.ctes, .plain update.targetClause, update.setClause, .optional update.fromClause] ++
    update.joins.map (Join.render update.settings.flavor) ++
    [.conditions "WHERE" update.filter, .returning update.settings.flavor update.returning]

def build (update : Update Child) : Option Bool → Option Bool → Build BuiltQuery :=
  update.settings.finish .update update.render

def detached (update : Update Q) : Update Q :=
  { update with filter := update.filter.detached }

end Update

end SqlCompose
