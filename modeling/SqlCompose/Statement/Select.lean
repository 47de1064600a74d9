import SqlCompose.Statement.Cte
import SqlCompose.Statement.Join

/-!
# SELECT

The clauses come in the order WITH, SELECT, FROM, joins, WHERE, GROUP BY, HAVING, ORDER BY, and the paging on one line. Without a column list every column is selected.
-/

namespace SqlCompose

structure Select (Q : Type) where
  settings : Settings := {}
  ctes : Option (List (Cte Q)) := none
  table : Value := .null
  name : Value := .null
  fields : List Field := []
  distinct : Value := .bool false
  joins : List (Join Q) := []
  filter : Restriction := .none
  groups : List Value := []
  groupBySelected : Value := .bool false
  having : Restriction := .none
  orders : List OrderBy := []
  paging : Paging := {}
  deriving Repr

namespace Select

variable {Q R : Type}

def map (f : Q → R) (select : Select Q) : Select R :=
  { select with ctes := select.ctes.map (·.map (Cte.map f)), joins := select.joins.map (Join.map f) }

def selected (select : Select Q) : Except Error (List Text) :=
  if select.fields.isEmpty then .ok ["*"] else Field.renderAll select.settings.flavor select.fields

def selectClause (select : Select Q) : Build Text := do
  let keyword : Text := if select.distinct.truthy then "SELECT DISTINCT" else "SELECT"
  return keyword ++ "\n " ++ Text.join ",\n " (← select.selected)

def fromClause (select : Select Q) : Build Text := do
  let quoted ← Identifier.quoteTableValue select.settings.flavor select.table
  return "FROM " ++ quoted ++ (← behind " AS " select.name)

/-- What the rows are grouped by, each expression once: the given columns, and then the column list if that is asked for. -/
def grouping (select : Select Q) : Except Error (List Text) := do
  let given ← Identifier.quoteColumns select.settings.flavor select.groups
  let listed ← if select.groupBySelected.truthy then select.selected else pure []
  return (given ++ listed.filter (fun (text : Text) => text != "*")).eraseDups

def groupClause (select : Select Q) : Build (Option Text) := do
  let groups ← select.grouping
  return if groups.isEmpty then none else some ("GROUP BY " ++ Text.join ", " groups)

def pagingClause (paging : Paging) : Build (Option Text) := do
  let lines ← (paging.render.mapM id : Except Error (List Text))
  return if lines.isEmpty then none else some (Text.join " " lines)

def render (select : Select Child) : Build Fragment := do
  Build.require select.table.truthy Clause.queryLogger .selectTable
  Clause.assemble <|
    [.with select.ctes, .plain select.selectClause, .plain select.fromClause] ++
    select.joins.map (Join.render select.settings.flavor) ++
    [.conditions "WHERE" select.filter, .optional select.groupClause, .conditions "HAVING" select.having,
      .orderBy select.settings.flavor select.orders, .optional (pagingClause select.paging)]

def build (select : Select Child) : Option Bool → Option Bool → Build BuiltQuery :=
  select.settings.finish .select select.render

def detached (select : Select Q) : Select Q :=
  { select with filter := select.filter.detached, having := select.having.detached }

/-- The same target, flavor and compaction, with every clause as it is at the beginning. -/
def cleared (select : Select Q) : Select Q :=
  { settings := { select.settings with schemas := [] }, table := select.table, name := select.name }

end Select

end SqlCompose
