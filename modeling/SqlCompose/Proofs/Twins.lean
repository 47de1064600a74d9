import Mathlib
import SqlCompose.Proofs.Alike
import SqlCompose.Query

/-!
# Statements that differ in their values

Two statements are twins if they are the same but for the values that are bound: the values of their conditions, of their rows and assignments, and of the finished queries in them. Names, expressions, keywords and schemas are the same, and there are as many values in the one as in the other. Who holds a chain plays no role.

The values of a condition are those that a predicate has been made with, so nothing in them is refused; should one be refused after all, it is refused on both sides. Beyond that their number is all that a text depends on.

Twins are defined over any relation between the parts of statements, so that one definition serves for queries and for the children that are built.
-/

namespace SqlCompose

open Build

/-! ### Values that can be bound -/

namespace Value

theorem faultItems?_cons {item : Value} {items : List Value} :
    faultItems? (item :: items) = none ↔ fault? item = none ∧ faultItems? items = none := by
  rw [faultItems?]
  cases given : fault? item with
  | none => exact (and_iff_right rfl).symm
  | some error =>
    constructor
    · rintro ⟨⟩
    · rintro ⟨⟨⟩, _⟩

theorem faultItems?_append (items others : List Value) : faultItems? (items ++ others) = (faultItems? items).or (faultItems? others) := by
  induction items with
  | nil => rfl
  | cons item items ih =>
    rw [List.cons_append, faultItems?, faultItems?, ih]
    cases fault? item <;> rfl

mutual

/-- What is refused in a copy is what is refused in the original. -/
theorem fault?_copyFrom (next : Label) : (value : Value) → fault? (copyFrom next value).1 = fault? value
  | .list _ items | .tuple _ items | .record _ .rendered items => by
    rw [copyFrom, fault?, fault?, faultItems?_copyItems]
  | .dict _ entries => by
    rw [copyFrom, fault?, fault?, faultEntries?_copyEntries, faultKeys?_copyEntries]
  | .byteArray _ _ | .null | .bool _ | .int _ | .float _ | .floatNaN _ | .decimal _ | .decimalNaN _ _ | .text _ | .entry _
  | .bytes _ | .date _ | .dateTime _ | .time _ | .duration _ _ _ | .uuid _ | .unbindable _ _ | .object _ _
  | .record _ .predicate _ | .record _ .builtQuery _ | .record _ .orderBy _ | .record _ .columnType _
  | .record _ .foreignKey _ => by
    simp [copyFrom, fault?]

theorem faultItems?_copyItems (next : Label) : (items : List Value) → faultItems? (copyItems next items).1 = faultItems? items
  | [] => rfl
  | item :: items => by
    rw [copyItems, faultItems?, faultItems?, fault?_copyFrom, faultItems?_copyItems]

theorem faultEntries?_copyEntries (next : Label) :
    (entries : List (Value × Value)) → faultEntries? (copyEntries next entries).1 = faultEntries? entries
  | [] => rfl
  | (_, value) :: entries => by
    rw [copyEntries, faultEntries?, faultEntries?, fault?_copyFrom, faultEntries?_copyEntries]

theorem faultKeys?_copyEntries (next : Label) :
    (entries : List (Value × Value)) → faultKeys? (copyEntries next entries).1 = faultKeys? entries
  | [] => rfl
  | (_, _) :: entries => by
    rw [copyEntries, faultKeys?, faultKeys?, faultKeys?_copyEntries]

end

end Value

/-! ### Twin results -/

/-- Things with a text and values: the same text, and as many values. -/
structure Fragment.Twin (left right : Fragment) : Prop where
  text : left.text = right.text
  length : left.values.length = right.values.length

structure BuiltQuery.Twin (left right : BuiltQuery) : Prop where
  text : left.text = right.text
  length : left.values.length = right.values.length

structure Numbered.Twin {T : Type} (left right : Numbered T) : Prop where
  text : left.text = right.text
  length : left.values.length = right.values.length
  next : left.next = right.next

/-! ### Twin conditions -/

/-- So many values on both sides, and none of them is refused on either side, or the first that is refused has one fault. -/
structure Value.ListTwin (left right : List Value) : Prop where
  length : left.length = right.length
  faults : Value.faultItems? left = Value.faultItems? right

structure Predicate.Twin (left right : Predicate) : Prop where
  text : left.text = right.text
  values : Value.ListTwin left.values right.values

structure Chain.LinkTwin (left right : Connective × Predicate) : Prop where
  connective : left.1 = right.1
  predicate : left.2.Twin right.2

def Chain.Twin (left right : Chain) : Prop :=
  List.Forall₂ LinkTwin left.links right.links

inductive Restriction.Twin : Restriction → Restriction → Prop
  | chain {left right : Held Chain} (twin : left.item.Twin right.item) : Twin (.chain left) (.chain right)
  | predicate {left right : Predicate} (twin : left.Twin right) : Twin (.predicate left) (.predicate right)
  | unusable (value : Value) (copied : Bool) : Twin (.unusable value copied) (.unusable value copied)

/-! ### Twin statements -/

section Statements

variable {Q R Q' R' : Type} (related : Q → R → Prop)

structure Cte.Twin (left : Cte Q) (right : Cte R) : Prop where
  name : left.name = right.name
  query : Option.Rel related left.query right.query
  recursive : left.recursive = right.recursive

inductive JoinSource.Twin : JoinSource Q → JoinSource R → Prop
  | table (reference name : Value) : Twin (.table reference name) (.table reference name)
  | subquery {query : Q} {query' : R} (twin : related query query') (name : Value) :
      Twin (.subquery query name) (.subquery query' name)

structure Join.Twin (left : Join Q) (right : Join R) : Prop where
  kind : left.kind = right.kind
  source : left.source.Twin related right.source
  condition : Option.Rel Predicate.Twin left.condition right.condition

structure Member.Twin (left : Member Q) (right : Member R) : Prop where
  query : related left.query right.query
  operator : left.operator = right.operator

inductive Assigned.Twin : Assigned → Assigned → Prop
  | value (left right : Value) : Twin (.value left) (.value right)
  | expression (expression : Value) : Twin (.expression expression) (.expression expression)

/-- Assignments to one column. -/
structure Update.AssignmentTwin (left right : Value × Assigned) : Prop where
  column : left.1 = right.1
  assigned : left.2.Twin right.2

structure Select.Twin (left : Select Q) (right : Select R) : Prop where
  settings : left.settings = right.settings
  ctes : Option.Rel (List.Forall₂ (Cte.Twin related)) left.ctes right.ctes
  table : left.table = right.table
  name : left.name = right.name
  fields : left.fields = right.fields
  distinct : left.distinct = right.distinct
  joins : List.Forall₂ (Join.Twin related) left.joins right.joins
  filter : left.filter.Twin right.filter
  groups : left.groups = right.groups
  groupBySelected : left.groupBySelected = right.groupBySelected
  having : left.having.Twin right.having
  orders : left.orders = right.orders
  paging : left.paging = right.paging

structure Compound.Twin (left : Compound Q) (right : Compound R) : Prop where
  settings : left.settings = right.settings
  ctes : Option.Rel (List.Forall₂ (Cte.Twin related)) left.ctes right.ctes
  name : left.name = right.name
  members : List.Forall₂ (Member.Twin related) left.members right.members
  fields : left.fields = right.fields
  filter : left.filter.Twin right.filter
  groups : left.groups = right.groups
  having : left.having.Twin right.having
  orders : left.orders = right.orders
  paging : left.paging = right.paging

structure Insert.Twin (left : Insert Q) (right : Insert R) : Prop where
  settings : left.settings = right.settings
  ctes : Option.Rel (List.Forall₂ (Cte.Twin related)) left.ctes right.ctes
  table : left.table = right.table
  rows : left.rows.map (·.1) = right.rows.map (·.1)
  columns : left.columns = right.columns
  source : Option.Rel related left.source right.source
  returning : left.returning = right.returning

structure Update.Twin (left : Update Q) (right : Update R) : Prop where
  settings : left.settings = right.settings
  ctes : Option.Rel (List.Forall₂ (Cte.Twin related)) left.ctes right.ctes
  table : left.table = right.table
  name : left.name = right.name
  assignments : List.Forall₂ AssignmentTwin left.assignments right.assignments
  origin : left.origin = right.origin
  joins : List.Forall₂ (Join.Twin related) left.joins right.joins
  filter : left.filter.Twin right.filter
  returning : left.returning = right.returning

structure Delete.Twin (left : Delete Q) (right : Delete R) : Prop where
  settings : left.settings = right.settings
  ctes : Option.Rel (List.Forall₂ (Cte.Twin related)) left.ctes right.ctes
  table : left.table = right.table
  name : left.name = right.name
  others : left.others = right.others
  filter : left.filter.Twin right.filter
  returning : left.returning = right.returning

inductive Statement.Twin : Statement Q → Statement R → Prop
  | built {left right : BuiltQuery} (twin : left.Twin right) : Twin (.built left) (.built right)
  | select {left : Select Q} {right : Select R} (twin : left.Twin related right) : Twin (.select left) (.select right)
  | compound {left : Compound Q} {right : Compound R} (twin : left.Twin related right) : Twin (.compound left) (.compound right)
  | insert {left : Insert Q} {right : Insert R} (twin : left.Twin related right) : Twin (.insert left) (.insert right)
  | update {left : Update Q} {right : Update R} (twin : left.Twin related right) : Twin (.update left) (.update right)
  | delete {left : Delete Q} {right : Delete R} (twin : left.Twin related right) : Twin (.delete left) (.delete right)
  | unbuildable : Twin .unbuildable .unbuildable

/-- Children that run alike, and are known to have the same columns. -/
structure Child.Twin (left right : Child) : Prop where
  build : left.build.Alike BuiltQuery.Twin right.build
  columns : left.columns = right.columns

/-! ### Twins under a map -/

variable {related} {mapped : Q' → R' → Prop} {f : Q → Q'} {f' : R → R'}
  (parts : ∀ part part', related part part' → mapped (f part) (f' part'))
include parts

private theorem optionRel_map {left : Option Q} {right : Option R} (twin : Option.Rel related left right) :
    Option.Rel mapped (left.map f) (right.map f') := by
  cases twin with
  | none => exact .none
  | some both => exact .some (parts _ _ both)

theorem Cte.Twin.map {left : Cte Q} {right : Cte R} (twin : left.Twin related right) :
    (left.map f).Twin mapped (right.map f') :=
  ⟨twin.name, optionRel_map parts twin.query, twin.recursive⟩

theorem Cte.forall₂_map {left : List (Cte Q)} {right : List (Cte R)} (twins : List.Forall₂ (Cte.Twin related) left right) :
    List.Forall₂ (Cte.Twin mapped) (left.map (Cte.map f)) (right.map (Cte.map f')) :=
  List.forall₂_map_left_iff.mpr (List.forall₂_map_right_iff.mpr (twins.imp fun _ _ twin => twin.map parts))

private theorem ctes_map {left : Option (List (Cte Q))} {right : Option (List (Cte R))}
    (twin : Option.Rel (List.Forall₂ (Cte.Twin related)) left right) :
    Option.Rel (List.Forall₂ (Cte.Twin mapped)) (left.map (·.map (Cte.map f))) (right.map (·.map (Cte.map f'))) := by
  cases twin with
  | none => exact .none
  | some twins => exact .some (Cte.forall₂_map parts twins)

theorem Join.Twin.map {left : Join Q} {right : Join R} (twin : left.Twin related right) :
    (left.map f).Twin mapped (right.map f') := by
  obtain ⟨kind, source, condition⟩ := left
  obtain ⟨kind', source', condition'⟩ := right
  refine ⟨twin.kind, ?_, twin.condition⟩
  cases twin.source with
  | table reference name => exact .table reference name
  | subquery both name => exact .subquery (parts _ _ both) name

private theorem joins_map {left : List (Join Q)} {right : List (Join R)}
    (twins : List.Forall₂ (Join.Twin related) left right) :
    List.Forall₂ (Join.Twin mapped) (left.map (Join.map f)) (right.map (Join.map f')) :=
  List.forall₂_map_left_iff.mpr (List.forall₂_map_right_iff.mpr (twins.imp fun _ _ twin => twin.map parts))

/-- Twins stay twins when related parts become related parts of another kind. -/
theorem Statement.Twin.map {left : Statement Q} {right : Statement R} (twin : left.Twin related right) :
    (left.map f).Twin mapped (right.map f') := by
  cases twin with
  | built twin => exact .built twin
  | select twin => exact .select { twin with ctes := ctes_map parts twin.ctes, joins := joins_map parts twin.joins }
  | compound twin =>
    refine .compound { twin with ctes := ctes_map parts twin.ctes, members := ?_ }
    exact List.forall₂_map_left_iff.mpr (List.forall₂_map_right_iff.mpr
      (twin.members.imp fun _ _ twin => ⟨parts _ _ twin.query, twin.operator⟩))
  | insert twin =>
    exact .insert { twin with ctes := ctes_map parts twin.ctes, source := optionRel_map parts twin.source }
  | update twin => exact .update { twin with ctes := ctes_map parts twin.ctes, joins := joins_map parts twin.joins }
  | delete twin => exact .delete { twin with ctes := ctes_map parts twin.ctes }
  | unbuildable => exact .unbuildable

end Statements

end SqlCompose
