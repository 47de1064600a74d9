import Mathlib
import SqlCompose.Proofs.StatementParts

/-!
# Statements that lack a part

Each kind of statement has parts that it cannot do without. A query is incomplete if one of the statements that are built for it lacks such a part. All statements inside are built for it but one: when an insertion has a row of values, its source is not looked at.

The values that a query binds, in the order of the text, can be told without building it.
-/

namespace SqlCompose

/-! ### What is lacking -/

/-- A common table expression needs a name and a statement. -/
def Cte.Lacks {Q : Type} (cte : Cte Q) : Prop :=
  cte.name.truthy = false ∨ cte.query = none

namespace Statement

variable {Q : Type}

/-- The part that no statement of the kind goes without is missing. -/
def Lacks : Statement Q → Prop
  | select s => s.table.truthy = false
  | compound s => s.members = [] ∨ s.name.truthy = false
  | insert s => s.table.truthy = false ∨ s.rows = [] ∧ s.source = none
  | update s => s.table.truthy = false ∨ s.assignments = [] ∨ s.origin = none ∧ s.joins ≠ []
  | delete s => s.table.truthy = false
  | built _ | unbuildable => False

/-- The statements inside that are built besides common table expressions and joins. -/
def renderedOwn : Statement Q → List Q
  | compound s => s.members.map (·.query)
  | insert s => if s.rows = [] then s.source.toList else []
  | _ => []

/-- The statements inside that are built. -/
def rendered (statement : Statement Q) : List Q :=
  statement.ctes.filterMap (·.query) ++ statement.joins.filterMap Join.child? ++ statement.renderedOwn

end Statement

/-- A query for which a statement is built that lacks something. -/
inductive Query.Incomplete : Query → Prop
  | lacks {statement : Statement Query} (lacks : statement.Lacks) : Incomplete (.of statement)
  | cte {statement : Statement Query} {cte : Cte Query} (member : cte ∈ statement.ctes) (lacks : cte.Lacks) :
      Incomplete (.of statement)
  | part {statement : Statement Query} {part : Query} (member : part ∈ statement.rendered) (incomplete : Incomplete part) :
      Incomplete (.of statement)

def Cte.Incomplete (cte : Cte Query) : Prop :=
  cte.Lacks ∨ ∃ query ∈ cte.query, query.Incomplete

def Join.Incomplete (join : Join Query) : Prop :=
  ∃ query ∈ join.child?, query.Incomplete

/-- A query is incomplete for its own sake or for that of a part. -/
theorem Query.incomplete_iff {statement : Statement Query} : (of statement).Incomplete ↔ statement.Lacks ∨
    (∃ cte ∈ statement.ctes, cte.Incomplete) ∨ (∃ join ∈ statement.joins, join.Incomplete) ∨
    ∃ part ∈ statement.renderedOwn, part.Incomplete := by
  constructor
  · intro incomplete
    cases incomplete with
    | lacks lacks => exact .inl lacks
    | cte member lacks => exact .inr (.inl ⟨_, member, .inl lacks⟩)
    | part member incomplete =>
      rcases List.mem_append.mp member with either | own
      · rcases List.mem_append.mp either with inCtes | inJoins
        · obtain ⟨cte, inside, given⟩ := List.mem_filterMap.mp inCtes
          exact .inr (.inl ⟨cte, inside, .inr ⟨_, given, incomplete⟩⟩)
        · obtain ⟨join, inside, given⟩ := List.mem_filterMap.mp inJoins
          exact .inr (.inr (.inl ⟨join, inside, _, given, incomplete⟩))
      · exact .inr (.inr (.inr ⟨_, own, incomplete⟩))
  · rintro (lacks | ⟨cte, member, lacks | ⟨query, given, incomplete⟩⟩ | ⟨join, member, query, given, incomplete⟩ |
      ⟨part, own, incomplete⟩)
    · exact .lacks lacks
    · exact .cte member lacks
    · exact .part (List.mem_append_left _ (List.mem_append_left _ (List.mem_filterMap.mpr ⟨cte, member, given⟩))) incomplete
    · exact .part (List.mem_append_left _ (List.mem_append_right _ (List.mem_filterMap.mpr ⟨join, member, given⟩))) incomplete
    · exact .part (List.mem_append_right _ own) incomplete

/-! ### The values that are bound -/

def Assigned.value? : Assigned → Option Value
  | value v => some v
  | expression _ => none

section Bindings

variable {Q R : Type} (bound : Q → List Value)

def Cte.bindings (cte : Cte Q) : List Value :=
  (cte.query.map bound).getD []

def Join.bindings (join : Join Q) : List Value :=
  (join.child?.map bound).getD [] ++ (join.condition.map (·.values)).getD []

namespace Statement

/-- The values of the clauses behind the common table expressions. -/
def ownBindings : Statement Q → List Value
  | built query => query.values
  | select s => s.joins.flatMap (Join.bindings bound) ++ (s.filter.values ++ s.having.values)
  | compound s => s.members.flatMap (fun member => bound member.query) ++ (s.filter.values ++ s.having.values)
  | insert s => if s.rows = [] then (s.source.map bound).getD [] else s.rows.map (·.2)
  | update s => s.assignments.filterMap (·.2.value?) ++ (s.joins.flatMap (Join.bindings bound) ++ s.filter.values)
  | delete s => s.filter.values
  | unbuildable => []

/-- The values that a statement binds, in the order of the text, given those that its parts bind. -/
def bindings (statement : Statement Q) : List Value :=
  statement.ctes.flatMap (Cte.bindings bound) ++ statement.ownBindings bound

theorem bindings_map (f : R → Q) (statement : Statement R) : (statement.map f).bindings bound = statement.bindings (bound ∘ f) := by
  have ctes (cte : Cte R) : (cte.map f).bindings bound = cte.bindings (bound ∘ f) := by
    rw [Cte.bindings, Cte.map, Option.map_map]
    rfl
  have joined (join : Join R) : (join.map f).bindings bound = join.bindings (bound ∘ f) := by
    obtain ⟨kind, source, condition⟩ := join
    cases source <;> rfl
  have all (joins : List (Join R)) : (joins.map (Join.map f)).flatMap (Join.bindings bound) =
      joins.flatMap (Join.bindings (bound ∘ f)) := by
    rw [List.flatMap_map]
    exact List.flatMap_congr fun join _ => joined join
  rw [bindings, ctes_map, List.flatMap_map]
  refine congrArg₂ (· ++ ·) (List.flatMap_congr fun cte _ => ctes cte) ?_
  cases statement with
  | select s => exact congrArg (· ++ _) (all s.joins)
  | compound s => exact congrArg (· ++ _) (List.flatMap_map _ _ _)
  | insert s =>
    change (if s.rows = [] then ((s.source.map f).map bound).getD [] else _) = _
    rw [Option.map_map]
    rfl
  | update s => exact congrArg (fun joined => _ ++ (joined ++ _)) (all s.joins)
  | built _ | delete _ | unbuildable => rfl

end Statement

end Bindings

namespace Query

/-- The values that a query binds if it is built without compaction. -/
def boundValues : Query → List Value :=
  fold (Statement.bindings id)

theorem boundValues_of (statement : Statement Query) : (of statement).boundValues = statement.bindings boundValues := by
  rw [boundValues, fold_of, Statement.bindings_map]
  rfl

end Query

end SqlCompose
