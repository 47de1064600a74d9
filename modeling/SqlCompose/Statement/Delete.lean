import SqlCompose.Statement.Cte

/-!
# DELETE

Rows of one table are deleted; further tables can be used in the conditions.
-/

namespace SqlCompose

structure Delete (Q : Type) where
  settings : Settings := {}
  ctes : Option (List (Cte Q)) := none
  table : Value := .null
  name : Value := .null
  others : List (Value × Value) := []
  filter : Restriction := .none
  returning : List Field := []
  deriving Repr

namespace Delete

variable {Q R : Type}

def map (f : Q → R) (delete : Delete Q) : Delete R :=
  { delete with ctes := delete.ctes.map (·.map (Cte.map f)) }

def targetClause (delete : Delete Q) : Build Text := do
  let table ← Identifier.quoteTableValue delete.settings.flavor delete.table
  return "DELETE FROM " ++ table ++ (← behind " AS " delete.name)

def usedTable (flavor : Flavor) (used : Value × Value) : Except Error Text := do
  return (← Identifier.quoteTableValue flavor used.1) ++ (← behind " AS " used.2)

def usedTables (delete : Delete Q) : Except Error (List Text) :=
  delete.others.mapM (usedTable delete.settings.flavor)

def othersClause (delete : Delete Q) : Build (Option Text) := do
  if delete.others.isEmpty then return none
  else return some ("USING " ++ Text.join ", " (← delete.usedTables))

def render (delete : Delete Child) : Build Fragment := do
  Build.require delete.table.truthy Clause.queryLogger .deleteTable
  Clause.assemble [.with delete.ctes, .plain delete.targetClause, .optional delete.othersClause,
    .conditions "WHERE" delete.filter, .returning delete.settings.flavor delete.returning]

def build (delete : Delete Child) : Option Bool → Option Bool → Build BuiltQuery :=
  delete.settings.finish .delete delete.render

def detached (delete : Delete Q) : Delete Q :=
  { delete with filter := delete.filter.detached }

end Delete

end SqlCompose
