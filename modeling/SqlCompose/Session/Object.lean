import SqlCompose.Configuration
import SqlCompose.Query.Values
import SqlCompose.Table.Statement

/-!
# Objects

Everything that a session can name and that changes in the hands of its callers: chains and queries, common table expressions, statements on tables and their columns, and two makers that give new statements their defaults. What never changes is a value: a predicate, a finished query, an entry of an order, a column type.

A statement on a table holds its columns as values, which refer to the objects that the columns are.
-/

namespace SqlCompose

inductive Object where
  | chain (chain : Chain)
  | query (query : Query)
  | cte (cte : Cte Query)
  | ctes (ctes : List (Cte Query))
  | column (column : Column)
  | table (statement : TableStatement Value)
  | queryMaker (defaults : Defaults)
  | tableMaker (flavor : Flavor)

namespace Object

/-! ### Objects among values -/

private def statementName : Statement Query → Text
  | .select _ => "SelectQuery"
  | .compound _ => "UnionQuery"
  | .insert _ => "InsertQuery"
  | .update _ => "UpdateQuery"
  | .delete _ => "DeleteQuery"
  | .built _ | .unbuildable => "BuiltQuery"

def kindName : Object → Text
  | chain _ => "Statement"
  | query q => statementName q.statement
  | cte _ => "Cte"
  | ctes _ => "CteMaker"
  | column _ => "ColumnDefinition"
  | table (.create _) => "CreateTableQuery"
  | table (.alter _) => "AlterTableQuery"
  | table (.drop _) => "DropTableQuery"
  | queryMaker _ => "Query"
  | tableMaker _ => "Table"

def length? : Object → Option Nat
  | chain c => some c.links.length
  | query q => match q.statement with
    | .compound c => some c.members.length
    | _ => none
  | ctes cs => some cs.length
  | _ => none

/-- An object as messages quote it, when its values are read in some way. A column shows its name and its type; the others have no form of their own and show only their kind. -/
def shown (read : Value → Value) : Object → Except Error Text
  | column c => (c.mapValues read).shown
  | other => .ok ("<" ++ other.kindName ++ ">")

/-- An object that has entries counts as true if there are any; every other object counts as true. -/
def face (read : Value → Value) (object : Object) : ObjectFace :=
  ⟨object.kindName, (object.shown read).toOption, object.length? != some 0⟩

/-! ### Copies and changes -/

def mapValues (f : Value → Value) : Object → Object
  | chain c => chain (c.mapValues f)
  | query q => query (q.mapValues f)
  | cte c => cte (c.mapAllValues f)
  | ctes cs => ctes (cs.map (Cte.mapAllValues f))
  | column c => column (c.mapValues f)
  | table t => table (t.mapValues f)
  | queryMaker d => queryMaker { d with compact := f d.compact, deep := f d.deep }
  | tableMaker flavor => tableMaker flavor

def resolved (find? : Label → Option Chain) : Object → Object
  | query q => query (.of (q.statement.resolved find?))
  | other => other

end Object

end SqlCompose
