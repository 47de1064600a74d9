import Mathlib
import SqlCompose.Query.Part

/-!
# What a statement is made of

The parts of a statement, listed once for all kinds: common table expressions and joins, columns, conditions and their predicates, names, expressions, and the statements inside it. A map over the statements inside maps the list of these and leaves all other lists as they are. The statements inside are smaller than the statement, which gives the induction over queries (`Query.induct`).
-/

namespace SqlCompose

/-! ### Joins and conditions -/

namespace Join

variable {Q : Type}

def names (join : Join Q) : List Value :=
  match join.source with
  | .table reference name => [reference, name]
  | .subquery _ name => [name]

def child? (join : Join Q) : Option Q :=
  match join.source with
  | .table _ _ => none
  | .subquery query _ => some query

end Join

/-- The predicates that conditions consist of. -/
def Restriction.predicates : Restriction → List Predicate
  | chain held => held.item.links.map (·.2)
  | predicate p => [p]
  | unusable _ _ => []

/-- The values of all predicates that conditions consist of. -/
def Restriction.values (restriction : Restriction) : List Value :=
  restriction.predicates.flatMap (·.values)

/-! ### Statements -/

namespace Statement

variable {Q : Type}

def ctes : Statement Q → List (Cte Q)
  | select s => s.ctes.getD []
  | compound s => s.ctes.getD []
  | insert s => s.ctes.getD []
  | update s => s.ctes.getD []
  | delete s => s.ctes.getD []
  | built _ | unbuildable => []

def joins : Statement Q → List (Join Q)
  | select s => s.joins
  | update s => s.joins
  | _ => []

def fields : Statement Q → List Field
  | select s => s.fields
  | compound s => s.fields
  | insert s => s.returning
  | update s => s.returning
  | delete s => s.returning
  | built _ | unbuildable => []

def restrictions : Statement Q → List Restriction
  | select s => [s.filter, s.having]
  | compound s => [s.filter, s.having]
  | update s => [s.filter]
  | delete s => [s.filter]
  | _ => []

/-- The tables, columns and aliases of the clauses that only some kinds have. -/
def ownNames : Statement Q → List Value
  | select s => s.table :: s.name :: (s.groups ++ s.orders.map (·.field))
  | compound s => s.name :: (s.groups ++ s.orders.map (·.field))
  | insert s => s.table :: (s.rows.map (·.1) ++ s.columns)
  | update s => s.table :: s.name :: (s.assignments.map (·.1) ++ s.origin.toList.flatMap fun used => [used.1, used.2])
  | delete s => s.table :: s.name :: s.others.flatMap fun used => [used.1, used.2]
  | built _ | unbuildable => []

/-- The tables, columns and aliases outside of column lists. -/
def names (statement : Statement Q) : List Value :=
  statement.ownNames ++ statement.ctes.map (·.name) ++ statement.joins.flatMap Join.names

/-- The expressions that columns are assigned. -/
def expressions : Statement Q → List Value
  | update s => s.assignments.filterMap fun
    | (_, .expression expression) => some expression
    | (_, .value _) => none
  | _ => []

def predicates (statement : Statement Q) : List Predicate :=
  statement.restrictions.flatMap Restriction.predicates ++ statement.joins.filterMap (·.condition)

/-- The statements inside a statement. -/
def children (statement : Statement Q) : List Q :=
  statement.ctes.filterMap (·.query) ++ statement.joins.filterMap Join.child? ++ match statement with
    | compound s => s.members.map (·.query)
    | insert s => s.source.toList
    | _ => []

/-! ### Under a map -/

section Map

variable {R : Type} (f : Q → R) (statement : Statement Q)

theorem ctes_map : (statement.map f).ctes = statement.ctes.map (Cte.map f) := by
  cases statement with
  | select s => cases given : s.ctes <;> simp [Statement.map, Select.map, ctes, given]
  | compound s => cases given : s.ctes <;> simp [Statement.map, Compound.map, ctes, given]
  | insert s => cases given : s.ctes <;> simp [Statement.map, Insert.map, ctes, given]
  | update s => cases given : s.ctes <;> simp [Statement.map, Update.map, ctes, given]
  | delete s => cases given : s.ctes <;> simp [Statement.map, Delete.map, ctes, given]
  | built _ | unbuildable => rfl

theorem joins_map : (statement.map f).joins = statement.joins.map (Join.map f) := by
  cases statement <;> rfl

theorem restrictions_map : (statement.map f).restrictions = statement.restrictions := by
  cases statement <;> rfl

theorem fields_map : (statement.map f).fields = statement.fields := by
  cases statement <;> rfl

theorem expressions_map : (statement.map f).expressions = statement.expressions := by
  cases statement <;> rfl

theorem settings?_map : (statement.map f).settings? = statement.settings? := by
  cases statement <;> rfl

theorem columns_map : (statement.map f).columns = statement.columns := by
  cases statement <;> rfl

theorem names_map : (statement.map f).names = statement.names := by
  have own : (statement.map f).ownNames = statement.ownNames := by
    cases statement <;> rfl
  have called : ∀ join : Join Q, (join.map f).names = join.names := by
    intro join
    obtain ⟨kind, source, condition⟩ := join
    cases source <;> rfl
  simp only [names, own, ctes_map, joins_map, List.map_map, List.flatMap_map, called]
  rfl

theorem predicates_map : (statement.map f).predicates = statement.predicates := by
  simp only [predicates, restrictions_map, joins_map, List.filterMap_map]
  rfl

theorem children_map : (statement.map f).children = statement.children.map f := by
  have queries : ∀ cte : Cte Q, (cte.map f).query = cte.query.map f := fun _ => rfl
  have joined : ∀ join : Join Q, (join.map f).child? = join.child?.map f := by
    intro join
    obtain ⟨kind, source, condition⟩ := join
    cases source <;> rfl
  simp only [children, ctes_map, joins_map, List.map_append, List.filterMap_map, List.map_filterMap, Function.comp_def, queries,
    joined]
  congr 1
  cases statement with
  | compound s => simp [Statement.map, Compound.map]
  | insert s => cases given : s.source <;> simp [Statement.map, Insert.map, given]
  | _ => rfl

end Map

/-! ### Smaller parts -/

section Size

variable [SizeOf Q]

private theorem sizeOf_ctes_lt {ctes : Option (List (Cte Q))} {part : Q} (member : part ∈ (ctes.getD []).filterMap (·.query)) :
    sizeOf part < sizeOf ctes := by
  obtain ⟨cte, inside, given⟩ := List.mem_filterMap.mp member
  cases ctes with
  | none => cases inside
  | some ctes =>
    have smaller := List.sizeOf_lt_of_mem (show cte ∈ ctes from inside)
    obtain ⟨name, query, recursive⟩ := cte
    obtain rfl : query = some part := given
    simp only [Cte.mk.sizeOf_spec, Option.some.sizeOf_spec] at smaller ⊢
    omega

private theorem sizeOf_joins_lt {joins : List (Join Q)} {part : Q} (member : part ∈ joins.filterMap Join.child?) :
    sizeOf part < sizeOf joins := by
  obtain ⟨join, inside, given⟩ := List.mem_filterMap.mp member
  have smaller := List.sizeOf_lt_of_mem inside
  obtain ⟨kind, source, condition⟩ := join
  cases source with
  | table => cases given
  | subquery query name =>
    obtain rfl : query = part := Option.some.inj given
    simp only [Join.mk.sizeOf_spec, JoinSource.subquery.sizeOf_spec] at smaller
    omega

theorem sizeOf_child {statement : Statement Q} {part : Q} (member : part ∈ statement.children) : sizeOf part < sizeOf statement := by
  rcases List.mem_append.mp member with either | own
  · rcases List.mem_append.mp either with inCtes | inJoins
    · cases statement with
      | select s | compound s | insert s | update s | delete s =>
        have smaller := sizeOf_ctes_lt inCtes
        cases s
        simp +arith only [select.sizeOf_spec, compound.sizeOf_spec, insert.sizeOf_spec, update.sizeOf_spec, delete.sizeOf_spec,
          Select.mk.sizeOf_spec, Compound.mk.sizeOf_spec, Insert.mk.sizeOf_spec, Update.mk.sizeOf_spec,
          Delete.mk.sizeOf_spec] at smaller ⊢
        omega
      | built | unbuildable => cases inCtes
    · cases statement with
      | select s | update s =>
        have smaller : _ < sizeOf s.joins := sizeOf_joins_lt inJoins
        cases s
        simp +arith only [select.sizeOf_spec, update.sizeOf_spec, Select.mk.sizeOf_spec, Update.mk.sizeOf_spec] at smaller ⊢
        omega
      | built | compound | insert | delete | unbuildable => cases inJoins
  · cases statement with
    | compound s =>
      obtain ⟨other, inside, rfl⟩ := List.mem_map.mp own
      have smaller := List.sizeOf_lt_of_mem inside
      cases s
      cases other
      simp +arith only [compound.sizeOf_spec, Compound.mk.sizeOf_spec, Member.mk.sizeOf_spec] at smaller ⊢
      omega
    | insert s =>
      have given := Option.mem_toList.mp own
      obtain ⟨settings, ctes, table, rows, columns, source, returning⟩ := s
      obtain rfl : source = some part := given
      simp +arith only [insert.sizeOf_spec, Insert.mk.sizeOf_spec, Option.some.sizeOf_spec]
    | built | select | update | delete | unbuildable => cases own

end Size

end Statement

/-- What holds of a query if it holds of its parts holds of every query. -/
theorem Query.induct {motive : Query → Prop}
    (step : ∀ statement : Statement Query, (∀ part ∈ statement.children, motive part) → motive (.of statement))
    (query : Query) : motive query := by
  induction size : sizeOf query using Nat.strongRecOn generalizing query with
  | ind n ih =>
    obtain ⟨statement⟩ := query
    refine step statement fun part member => ih (sizeOf part) ?_ part rfl
    have smaller := Statement.sizeOf_child member
    rw [Query.of.sizeOf_spec] at size
    omega

/-- As a part of another statement, a query is built without compaction. -/
theorem Query.build_toChild (query : Query) : query.toChild.build = query.build (some false) none := by
  obtain ⟨statement⟩ := query
  rw [toChild, fold_of]
  rfl

end SqlCompose
