import SqlCompose.Query

/-!
# Values in a query

The values that a query holds at any depth: those of its conditions, of its rows and assignments, of its order, and of finished queries in it, and the names, expressions, schemas and switches that were given to it. A change of a value that its caller holds as well is a map over all of them.
-/

namespace SqlCompose

def Predicate.mapValues (f : Value → Value) (predicate : Predicate) : Predicate :=
  { predicate with values := predicate.values.map f }

def BuiltQuery.mapValues (f : Value → Value) (query : BuiltQuery) : BuiltQuery :=
  ⟨f query.text, query.values.map f⟩

def Chain.mapValues (f : Value → Value) (chain : Chain) : Chain :=
  ⟨chain.links.map fun (connective, predicate) => (connective, predicate.mapValues f)⟩

def Restriction.mapValues (f : Value → Value) : Restriction → Restriction
  | chain held => chain (held.map (Chain.mapValues f))
  | predicate p => predicate (p.mapValues f)
  | unusable value copied => unusable (f value) copied

/-- A restriction with the chain that its holder has now. -/
def Restriction.resolved (find? : Label → Option Chain) : Restriction → Restriction
  | chain held => chain (held.resolved find?)
  | other => other

def Settings.mapValues (f : Value → Value) (settings : Settings) : Settings :=
  { settings with schemas := settings.schemas.map f, compact := f settings.compact, deep := f settings.deep }

def Field.mapValues (f : Value → Value) (field : Field) : Field :=
  { field with value := f field.value }

def OrderBy.mapValues (f : Value → Value) (order : OrderBy) : OrderBy :=
  { order with field := f order.field }

def Cte.mapValues {Q : Type} (f : Value → Value) (cte : Cte Q) : Cte Q :=
  { cte with name := f cte.name, recursive := f cte.recursive }

def Join.mapValues {Q : Type} (f : Value → Value) (join : Join Q) : Join Q :=
  { join with
    source := match join.source with
      | .table reference name => .table (f reference) (f name)
      | .subquery query name => .subquery query (f name)
    condition := join.condition.map (Predicate.mapValues f) }

def Assigned.mapValues (f : Value → Value) : Assigned → Assigned
  | value v => value (f v)
  | expression e => expression (f e)

namespace Statement

variable {Q : Type}

/-- Maps over the values of a statement, but not over those of its parts. -/
def mapValues (f : Value → Value) : Statement Q → Statement Q
  | built query => built (query.mapValues f)
  | select s => select { s with
      settings := s.settings.mapValues f
      ctes := s.ctes.map (·.map (Cte.mapValues f))
      table := f s.table
      name := f s.name
      fields := s.fields.map (Field.mapValues f)
      distinct := f s.distinct
      joins := s.joins.map (Join.mapValues f)
      filter := s.filter.mapValues f
      groups := s.groups.map f
      groupBySelected := f s.groupBySelected
      having := s.having.mapValues f
      orders := s.orders.map (OrderBy.mapValues f) }
  | compound s => compound { s with
      settings := s.settings.mapValues f
      ctes := s.ctes.map (·.map (Cte.mapValues f))
      name := f s.name
      fields := s.fields.map (Field.mapValues f)
      filter := s.filter.mapValues f
      groups := s.groups.map f
      having := s.having.mapValues f
      orders := s.orders.map (OrderBy.mapValues f) }
  | insert s => insert { s with
      settings := s.settings.mapValues f
      ctes := s.ctes.map (·.map (Cte.mapValues f))
      table := f s.table
      rows := s.rows.map fun (column, value) => (f column, f value)
      columns := s.columns.map f
      returning := s.returning.map (Field.mapValues f) }
  | update s => update { s with
      settings := s.settings.mapValues f
      ctes := s.ctes.map (·.map (Cte.mapValues f))
      table := f s.table
      name := f s.name
      assignments := s.assignments.map fun (column, assigned) => (f column, assigned.mapValues f)
      origin := s.origin.map fun (table, name) => (f table, f name)
      joins := s.joins.map (Join.mapValues f)
      filter := s.filter.mapValues f
      returning := s.returning.map (Field.mapValues f) }
  | delete s => delete { s with
      settings := s.settings.mapValues f
      ctes := s.ctes.map (·.map (Cte.mapValues f))
      table := f s.table
      name := f s.name
      others := s.others.map fun (table, name) => (f table, f name)
      filter := s.filter.mapValues f
      returning := s.returning.map (Field.mapValues f) }
  | unbuildable => unbuildable

def resolved (find? : Label → Option Chain) : Statement Q → Statement Q
  | select s => select { s with
      filter := s.filter.resolved find?
      having := s.having.resolved find? }
  | compound s => compound { s with
      filter := s.filter.resolved find?
      having := s.having.resolved find? }
  | update s => update { s with filter := s.filter.resolved find? }
  | delete s => delete { s with filter := s.filter.resolved find? }
  | other => other

end Statement

namespace Query

def mapValues (f : Value → Value) : Query → Query :=
  fold fun statement => of (statement.mapValues f)

end Query

def Cte.mapAllValues (f : Value → Value) (cte : Cte Query) : Cte Query :=
  (cte.mapValues f).map (Query.mapValues f)

end SqlCompose
