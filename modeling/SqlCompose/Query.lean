import SqlCompose.Statement.Compound
import SqlCompose.Statement.Delete
import SqlCompose.Statement.Insert
import SqlCompose.Statement.Select
import SqlCompose.Statement.Update

/-!
# Queries

A query is a statement whose parts are queries again: common table expressions, members of a compound, joined statements and the source of an insertion. A finished query can stand in any of these places too. So can things that are no queries but can be copied and built on their own; a statement with such a part is accepted, and fails when it is built.

A recursion over queries treats the parts first and then the statement around them. It is written once, as `fold`; `fold_of` says that it is the map over the parts followed by one step.
-/

namespace SqlCompose

/-- A statement over parts of some type. -/
inductive Statement (Q : Type) where
  | built (query : BuiltQuery)
  | select (select : Select Q)
  | compound (compound : Compound Q)
  | insert (insert : Insert Q)
  | update (update : Update Q)
  | delete (delete : Delete Q)
  | unbuildable
  deriving Repr

namespace Statement

variable {Q R : Type}

def map (f : Q → R) : Statement Q → Statement R
  | built query => built query
  | select s => select (s.map f)
  | compound s => compound (s.map f)
  | insert s => insert (s.map f)
  | update s => update (s.map f)
  | delete s => delete (s.map f)
  | unbuildable => unbuildable

def kind? : Statement Q → Option StatementKind
  | built _ | unbuildable => none
  | select _ => some .select
  | compound _ => some .union
  | insert _ => some .insert
  | update _ => some .update
  | delete _ => some .delete

/-- The statement with its parts built, and finished as asked for. A finished query is itself the result. -/
def build (statement : Statement Child) (compact deep : Option Bool) : Build BuiltQuery :=
  match statement with
  | built query => pure query
  | select s => s.build compact deep
  | compound s => s.build compact deep
  | insert s => s.build compact deep
  | update s => s.build compact deep
  | delete s => s.build compact deep
  | unbuildable => throw .badArgument

/-- The columns that the rows of a statement are known to have, as far as the statement lists them. -/
def columns : Statement Q → Except Error (List Value)
  | select s => .ok (s.fields.map (·.value))
  | insert _ => .error .badArgument
  | _ => .ok []

/-- A statement as a part of another one: it is built without compaction. -/
def toChild (statement : Statement Child) : Child :=
  ⟨statement.build (some false) none, statement.columns⟩

/-- Fails if the conditions of a statement cannot be copied. The statements inside it are copies, so they can. -/
def checkCopy (checkValue : Value → Except Error Unit) : Statement Q → Except Error Unit
  | select s => do
    s.filter.checkCopy checkValue
    s.having.checkCopy checkValue
  | compound s => do
    s.filter.checkCopy checkValue
    s.having.checkCopy checkValue
  | update s => s.filter.checkCopy checkValue
  | delete s => s.filter.checkCopy checkValue
  | built _ | insert _ | unbuildable => .ok ()

def detached : Statement Q → Statement Q
  | select s => select s.detached
  | compound s => compound s.detached
  | update s => update s.detached
  | delete s => delete s.detached
  | other => other

end Statement

inductive Query where
  | of (statement : Statement Query)

namespace Query

/-! ### Recursion over queries -/

section Fold

variable {R : Type} (step : Statement R → R)

mutual

/-- Replaces every part of a query, from the inside out. -/
def fold : Query → R
  | of statement => step (foldStatement statement)

private def foldStatement : Statement Query → Statement R
  | .built query => .built query
  | .select s => .select (foldSelect s)
  | .compound s => .compound (foldCompound s)
  | .insert s => .insert (foldInsert s)
  | .update s => .update (foldUpdate s)
  | .delete s => .delete (foldDelete s)
  | .unbuildable => .unbuildable

private def foldSelect : Select Query → Select R
  | ⟨settings, ctes, table, name, fields, distinct, joins, filter, groups, groupBySelected, having, orders, paging⟩ =>
    ⟨settings, foldWith ctes, table, name, fields, distinct, foldJoins joins, filter, groups, groupBySelected, having,
      orders, paging⟩

private def foldCompound : Compound Query → Compound R
  | ⟨settings, ctes, name, members, fields, filter, groups, having, orders, paging⟩ =>
    ⟨settings, foldWith ctes, name, foldMembers members, fields, filter, groups, having, orders, paging⟩

private def foldInsert : Insert Query → Insert R
  | ⟨settings, ctes, table, rows, columns, source, returning⟩ =>
    ⟨settings, foldWith ctes, table, rows, columns, foldOption source, returning⟩

private def foldUpdate : Update Query → Update R
  | ⟨settings, ctes, table, name, assignments, origin, joins, filter, returning⟩ =>
    ⟨settings, foldWith ctes, table, name, assignments, origin, foldJoins joins, filter, returning⟩

private def foldDelete : Delete Query → Delete R
  | ⟨settings, ctes, table, name, others, filter, returning⟩ =>
    ⟨settings, foldWith ctes, table, name, others, filter, returning⟩

private def foldWith : Option (List (Cte Query)) → Option (List (Cte R))
  | none => none
  | some ctes => some (foldCtes ctes)

private def foldCtes : List (Cte Query) → List (Cte R)
  | [] => []
  | cte :: ctes => foldCte cte :: foldCtes ctes

private def foldCte : Cte Query → Cte R
  | ⟨name, query, recursive⟩ => ⟨name, foldOption query, recursive⟩

private def foldOption : Option Query → Option R
  | none => none
  | some query => some (fold query)

private def foldJoins : List (Join Query) → List (Join R)
  | [] => []
  | join :: joins => foldJoin join :: foldJoins joins

private def foldJoin : Join Query → Join R
  | ⟨kind, source, condition⟩ => ⟨kind, foldSource source, condition⟩

private def foldSource : JoinSource Query → JoinSource R
  | .table reference name => .table reference name
  | .subquery query name => .subquery (fold query) name

private def foldMembers : List (Member Query) → List (Member R)
  | [] => []
  | member :: members => foldMember member :: foldMembers members

private def foldMember : Member Query → Member R
  | ⟨query, operator⟩ => ⟨fold query, operator⟩

end

private theorem foldOption_eq (query : Option Query) : foldOption step query = query.map (fold step) := by
  cases query <;> simp [foldOption]

private theorem foldCtes_eq (ctes : List (Cte Query)) : foldCtes step ctes = ctes.map (Cte.map (fold step)) := by
  induction ctes with
  | nil => simp [foldCtes]
  | cons cte ctes ih => cases cte; simp [foldCtes, foldCte, foldOption_eq, Cte.map, ih]

private theorem foldWith_eq (ctes : Option (List (Cte Query))) :
    foldWith step ctes = ctes.map (·.map (Cte.map (fold step))) := by
  cases ctes <;> simp [foldWith, foldCtes_eq]

private theorem foldJoins_eq (joins : List (Join Query)) :
    foldJoins step joins = joins.map (Join.map (fold step)) := by
  induction joins with
  | nil => simp [foldJoins]
  | cons join joins ih =>
    obtain ⟨kind, source, condition⟩ := join
    cases source <;> simp [foldJoins, foldJoin, foldSource, Join.map, ih]

private theorem foldMembers_eq (members : List (Member Query)) :
    foldMembers step members = members.map fun member => ⟨fold step member.query, member.operator⟩ := by
  induction members with
  | nil => simp [foldMembers]
  | cons member members ih => cases member; simp [foldMembers, foldMember, ih]

theorem fold_of (statement : Statement Query) : fold step (of statement) = step (statement.map (fold step)) := by
  rw [fold]
  congr 1
  cases statement with
  | built query => simp [foldStatement, Statement.map]
  | select s => cases s; simp [foldStatement, foldSelect, Statement.map, Select.map, foldWith_eq, foldJoins_eq]
  | compound s => cases s; simp [foldStatement, foldCompound, Statement.map, Compound.map, foldWith_eq, foldMembers_eq]
  | insert s => cases s; simp [foldStatement, foldInsert, Statement.map, Insert.map, foldWith_eq, foldOption_eq]
  | update s => cases s; simp [foldStatement, foldUpdate, Statement.map, Update.map, foldWith_eq, foldJoins_eq]
  | delete s => cases s; simp [foldStatement, foldDelete, Statement.map, Delete.map, foldWith_eq]
  | unbuildable => simp [foldStatement, Statement.map]

end Fold

/-! ### Building -/

def statement : Query → Statement Query
  | of statement => statement

def toChild : Query → Child :=
  fold Statement.toChild

/-- The finished text of a query and its values. What is not asked for is taken from the settings of the query itself; those of its parts play no role. -/
def build (query : Query) (compact deep : Option Bool) : Build BuiltQuery :=
  (query.statement.map toChild).build compact deep

def detached (query : Query) : Query :=
  of query.statement.detached

end Query

end SqlCompose
