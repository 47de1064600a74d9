import Mathlib
import SqlCompose.Proofs.TwinConditions
import SqlCompose.Query.Edit

/-!
# Changes that differ in their values

A change of a statement that brings values to bind, made with other values on a twin of the statement, gives twins again. The parts that hold values are the conditions, the joins, the rows and the assignments, and the finished queries among the children; every other part is the same on both sides and changes in the same way.

Only changes that succeed on both sides are compared.
-/

namespace SqlCompose

open Build

/-! ### Restrictions -/

namespace Restriction

variable {left right changed changed' : Restriction}

theorem Twin.isVacant (twin : left.Twin right) : left.isVacant = right.isVacant := by
  cases twin with
  | chain twin => exact Chain.Twin.isEmpty twin
  | predicate _ | unusable _ _ => rfl

theorem Twin.linkTo (twin : left.Twin right) (connective : Connective) {condition condition' : Condition}
    (conditions : condition.Twin condition') {values values' : List Value} (length : values.length = values'.length)
    (done : (Statement.linkTo connective condition values left).Yields changed)
    (done' : (Statement.linkTo connective condition' values' right).Yields changed') : changed.Twin changed' := by
  cases twin with
  | chain twin =>
    obtain ⟨chain, linked, same⟩ := done.bind
    obtain ⟨chain', linked', same'⟩ := done'.bind
    rw [← yields_pure.mp same, ← yields_pure.mp same']
    exact .chain (Chain.Twin.link twin _ conditions length linked linked')
  | predicate _ | unusable _ _ => exact absurd done not_yields_throw

theorem Twin.restrict (twin : left.Twin right) (connective : Connective) {condition condition' : Condition}
    (conditions : condition.Twin condition') {values values' : List Value} (length : values.length = values'.length)
    (done : (Statement.restrict connective condition values left).Yields changed)
    (done' : (Statement.restrict connective condition' values' right).Yields changed') : changed.Twin changed' := by
  unfold Statement.restrict at done done'
  cases conditions with
  | chain chains =>
    rw [twin.isVacant, isEmpty_eq_of_length length] at done
    by_cases adopted : (connective = .and && values'.isEmpty && right.isVacant) = true
    · simp only [adopted, if_true] at done done'
      rw [← yields_pure.mp done, ← yields_pure.mp done']
      exact .chain chains
    · simp only [adopted, Bool.false_eq_true, if_false] at done done'
      exact twin.linkTo connective (.chain chains) length done done'
  | text text => exact twin.linkTo connective (.text text) length done done'
  | predicate both => exact twin.linkTo connective (.predicate both) length done done'
  | query both => exact twin.linkTo connective (.query both) length done done'

end Restriction

/-! ### Parts of statements -/

namespace Statement

section Parts

variable {Q R : Type} {related : Q → R → Prop} {left changed : Statement Q} {right changed' : Statement R}
  (twin : left.Twin related right)
include twin

theorem Twin.changeSettings {change : Settings → Settings} (done : (left.changeSettings change).Yields changed)
    (done' : (right.changeSettings change).Yields changed') : changed.Twin related changed' := by
  cases twin with
  | select twin =>
    rw [← yields_pure.mp done, ← yields_pure.mp done']
    exact .select { twin with settings := congrArg change twin.settings }
  | compound twin =>
    rw [← yields_pure.mp done, ← yields_pure.mp done']
    exact .compound { twin with settings := congrArg change twin.settings }
  | insert twin =>
    rw [← yields_pure.mp done, ← yields_pure.mp done']
    exact .insert { twin with settings := congrArg change twin.settings }
  | update twin =>
    rw [← yields_pure.mp done, ← yields_pure.mp done']
    exact .update { twin with settings := congrArg change twin.settings }
  | delete twin =>
    rw [← yields_pure.mp done, ← yields_pure.mp done']
    exact .delete { twin with settings := congrArg change twin.settings }
  | built _ | unbuildable => exact absurd done not_yields_throw

theorem Twin.setCtes {ctes : Option (List (Cte Q))} {ctes' : Option (List (Cte R))}
    (both : Option.Rel (List.Forall₂ (Cte.Twin related)) ctes ctes') (done : (left.setCtes ctes).Yields changed)
    (done' : (right.setCtes ctes').Yields changed') : changed.Twin related changed' := by
  cases twin with
  | select twin =>
    rw [← yields_pure.mp done, ← yields_pure.mp done']
    exact .select { twin with ctes := both }
  | compound twin =>
    rw [← yields_pure.mp done, ← yields_pure.mp done']
    exact .compound { twin with ctes := both }
  | insert twin =>
    rw [← yields_pure.mp done, ← yields_pure.mp done']
    exact .insert { twin with ctes := both }
  | update twin =>
    rw [← yields_pure.mp done, ← yields_pure.mp done']
    exact .update { twin with ctes := both }
  | delete twin =>
    rw [← yields_pure.mp done, ← yields_pure.mp done']
    exact .delete { twin with ctes := both }
  | built _ | unbuildable => exact absurd done not_yields_throw

theorem Twin.setTable {table name : Value} (done : (left.setTable table name).Yields changed)
    (done' : (right.setTable table name).Yields changed') : changed.Twin related changed' := by
  cases twin with
  | select twin =>
    rw [← yields_pure.mp done, ← yields_pure.mp done']
    exact .select { twin with table := rfl, name := rfl }
  | insert twin =>
    rw [← yields_pure.mp done, ← yields_pure.mp done']
    exact .insert { twin with table := rfl }
  | update twin =>
    rw [← yields_pure.mp done, ← yields_pure.mp done']
    exact .update { twin with table := rfl, name := rfl }
  | delete twin =>
    rw [← yields_pure.mp done, ← yields_pure.mp done']
    exact .delete { twin with table := rfl, name := rfl }
  | built _ | compound _ | unbuildable => exact absurd done not_yields_throw

theorem Twin.changeFilter {change change' : Restriction → Build Restriction}
    (agree : ∀ before before', before.Twin before' → ∀ after, (change before).Yields after →
      ∀ after', (change' before').Yields after' → after.Twin after')
    (done : (left.changeFilter change).Yields changed) (done' : (right.changeFilter change').Yields changed') :
    changed.Twin related changed' := by
  cases twin with
  | select twin =>
    obtain ⟨filter, first, same⟩ := done.bind
    obtain ⟨filter', first', same'⟩ := done'.bind
    rw [← yields_pure.mp same, ← yields_pure.mp same']
    exact .select { twin with filter := agree _ _ twin.filter _ first _ first' }
  | compound twin =>
    obtain ⟨filter, first, same⟩ := done.bind
    obtain ⟨filter', first', same'⟩ := done'.bind
    rw [← yields_pure.mp same, ← yields_pure.mp same']
    exact .compound { twin with filter := agree _ _ twin.filter _ first _ first' }
  | update twin =>
    obtain ⟨filter, first, same⟩ := done.bind
    obtain ⟨filter', first', same'⟩ := done'.bind
    rw [← yields_pure.mp same, ← yields_pure.mp same']
    exact .update { twin with filter := agree _ _ twin.filter _ first _ first' }
  | delete twin =>
    obtain ⟨filter, first, same⟩ := done.bind
    obtain ⟨filter', first', same'⟩ := done'.bind
    rw [← yields_pure.mp same, ← yields_pure.mp same']
    exact .delete { twin with filter := agree _ _ twin.filter _ first _ first' }
  | built _ | insert _ | unbuildable => exact absurd done not_yields_throw

theorem Twin.changeHaving {change change' : Restriction → Build Restriction}
    (agree : ∀ before before', before.Twin before' → ∀ after, (change before).Yields after →
      ∀ after', (change' before').Yields after' → after.Twin after')
    (done : (left.changeHaving change).Yields changed) (done' : (right.changeHaving change').Yields changed') :
    changed.Twin related changed' := by
  cases twin with
  | select twin =>
    obtain ⟨having, first, same⟩ := done.bind
    obtain ⟨having', first', same'⟩ := done'.bind
    rw [← yields_pure.mp same, ← yields_pure.mp same']
    exact .select { twin with having := agree _ _ twin.having _ first _ first' }
  | compound twin =>
    obtain ⟨having, first, same⟩ := done.bind
    obtain ⟨having', first', same'⟩ := done'.bind
    rw [← yields_pure.mp same, ← yields_pure.mp same']
    exact .compound { twin with having := agree _ _ twin.having _ first _ first' }
  | built _ | insert _ | update _ | delete _ | unbuildable => exact absurd done not_yields_throw

theorem Twin.addJoin {join : Join Q} {join' : Join R} (both : join.Twin related join') (done : (left.addJoin join).Yields changed)
    (done' : (right.addJoin join').Yields changed') : changed.Twin related changed' := by
  cases twin with
  | select twin =>
    rw [← yields_pure.mp done, ← yields_pure.mp done']
    exact .select { twin with joins := List.rel_append twin.joins (.cons both .nil) }
  | update twin =>
    rw [← yields_pure.mp done, ← yields_pure.mp done']
    exact .update { twin with joins := List.rel_append twin.joins (.cons both .nil) }
  | built _ | compound _ | insert _ | delete _ | unbuildable => exact absurd done not_yields_throw

theorem Twin.changeFields {change : List Field → List Field} (done : (left.changeFields change).Yields changed)
    (done' : (right.changeFields change).Yields changed') : changed.Twin related changed' := by
  cases twin with
  | select twin =>
    rw [← yields_pure.mp done, ← yields_pure.mp done']
    exact .select { twin with fields := congrArg change twin.fields }
  | compound twin =>
    rw [← yields_pure.mp done, ← yields_pure.mp done']
    exact .compound { twin with fields := congrArg change twin.fields }
  | built _ | insert _ | update _ | delete _ | unbuildable => exact absurd done not_yields_throw

theorem Twin.changeGroups {change : List Value → List Value} (done : (left.changeGroups change).Yields changed)
    (done' : (right.changeGroups change).Yields changed') : changed.Twin related changed' := by
  cases twin with
  | select twin =>
    rw [← yields_pure.mp done, ← yields_pure.mp done']
    exact .select { twin with groups := congrArg change twin.groups }
  | compound twin =>
    rw [← yields_pure.mp done, ← yields_pure.mp done']
    exact .compound { twin with groups := congrArg change twin.groups }
  | built _ | insert _ | update _ | delete _ | unbuildable => exact absurd done not_yields_throw

theorem Twin.changeOrders {change : List OrderBy → List OrderBy} (done : (left.changeOrders change).Yields changed)
    (done' : (right.changeOrders change).Yields changed') : changed.Twin related changed' := by
  cases twin with
  | select twin =>
    rw [← yields_pure.mp done, ← yields_pure.mp done']
    exact .select { twin with orders := congrArg change twin.orders }
  | compound twin =>
    rw [← yields_pure.mp done, ← yields_pure.mp done']
    exact .compound { twin with orders := congrArg change twin.orders }
  | built _ | insert _ | update _ | delete _ | unbuildable => exact absurd done not_yields_throw

theorem Twin.changePaging {change : Paging → Paging} (done : (left.changePaging change).Yields changed)
    (done' : (right.changePaging change).Yields changed') : changed.Twin related changed' := by
  cases twin with
  | select twin =>
    rw [← yields_pure.mp done, ← yields_pure.mp done']
    exact .select { twin with paging := congrArg change twin.paging }
  | compound twin =>
    rw [← yields_pure.mp done, ← yields_pure.mp done']
    exact .compound { twin with paging := congrArg change twin.paging }
  | built _ | insert _ | update _ | delete _ | unbuildable => exact absurd done not_yields_throw

theorem Twin.addOther {table name : Value} (done : (left.addOther table name).Yields changed)
    (done' : (right.addOther table name).Yields changed') : changed.Twin related changed' := by
  cases twin with
  | update twin =>
    rw [← yields_pure.mp done, ← yields_pure.mp done']
    exact .update { twin with origin := rfl }
  | delete twin =>
    rw [← yields_pure.mp done, ← yields_pure.mp done']
    exact .delete { twin with others := congrArg (· ++ [(table, name)]) twin.others }
  | built _ | select _ | compound _ | insert _ | unbuildable => exact absurd done not_yields_throw

theorem Twin.changeReturning {change : List Field → List Field} (done : (left.changeReturning change).Yields changed)
    (done' : (right.changeReturning change).Yields changed') : changed.Twin related changed' := by
  cases twin with
  | insert twin =>
    rw [← yields_pure.mp done, ← yields_pure.mp done']
    exact .insert { twin with returning := congrArg change twin.returning }
  | update twin =>
    rw [← yields_pure.mp done, ← yields_pure.mp done']
    exact .update { twin with returning := congrArg change twin.returning }
  | delete twin =>
    rw [← yields_pure.mp done, ← yields_pure.mp done']
    exact .delete { twin with returning := congrArg change twin.returning }
  | built _ | select _ | compound _ | unbuildable => exact absurd done not_yields_throw

theorem Twin.changeSelect {change : Select Q → Select Q} {change' : Select R → Select R}
    (done : (left.changeSelect change).Yields changed) (done' : (right.changeSelect change').Yields changed')
    (agree : ∀ before before', before.Twin related before' → (change before).Twin related (change' before')) :
    changed.Twin related changed' := by
  cases twin with
  | select twin =>
    rw [← yields_pure.mp done, ← yields_pure.mp done']
    exact .select (agree _ _ twin)
  | built _ | compound _ | insert _ | update _ | delete _ | unbuildable => exact absurd done not_yields_throw

theorem Twin.changeCompound {change : Compound Q → Compound Q} {change' : Compound R → Compound R}
    (done : (left.changeCompound change).Yields changed) (done' : (right.changeCompound change').Yields changed')
    (agree : ∀ before before', before.Twin related before' → (change before).Twin related (change' before')) :
    changed.Twin related changed' := by
  cases twin with
  | compound twin =>
    rw [← yields_pure.mp done, ← yields_pure.mp done']
    exact .compound (agree _ _ twin)
  | built _ | select _ | insert _ | update _ | delete _ | unbuildable => exact absurd done not_yields_throw

theorem Twin.changeInsert {change : Insert Q → Insert Q} {change' : Insert R → Insert R}
    (done : (left.changeInsert change).Yields changed) (done' : (right.changeInsert change').Yields changed')
    (agree : ∀ before before', before.Twin related before' → (change before).Twin related (change' before')) :
    changed.Twin related changed' := by
  cases twin with
  | insert twin =>
    rw [← yields_pure.mp done, ← yields_pure.mp done']
    exact .insert (agree _ _ twin)
  | built _ | select _ | compound _ | update _ | delete _ | unbuildable => exact absurd done not_yields_throw

theorem Twin.changeUpdate {change : Update Q → Update Q} {change' : Update R → Update R}
    (done : (left.changeUpdate change).Yields changed) (done' : (right.changeUpdate change').Yields changed')
    (agree : ∀ before before', before.Twin related before' → (change before).Twin related (change' before')) :
    changed.Twin related changed' := by
  cases twin with
  | update twin =>
    rw [← yields_pure.mp done, ← yields_pure.mp done']
    exact .update (agree _ _ twin)
  | built _ | select _ | compound _ | insert _ | delete _ | unbuildable => exact absurd done not_yields_throw

end Parts

/-! ### Changes -/

/-- On twins, two changes of a statement give twins. -/
def Edit.Agree (edit edit' : Edit) : Prop :=
  ∀ left right, Statement.Twin Query.PartTwin left right → ∀ changed, (edit.apply left).Yields changed →
    ∀ changed', (edit'.apply right).Yields changed' → Statement.Twin Query.PartTwin changed changed'

namespace Edit

/-- A change that brings neither values to bind nor parts, nor conditions in which there may be any. -/
def isPlain : Edit → Bool
  | flavor _ | schemas _ | moreSchemas _ | compaction _ _ | .ctes none | table _ _ | name _ | fields _ | moreFields _ | distinct _
  | groups _ | moreGroups _ | groupBySelected _ | order _ | noOrder | limit _ | offset _ | noPaging | columns _
  | assignment _ (.expression _) | other _ _ | returning _ | moreReturning _ | reset => true
  | _ => false

theorem agree_of_isPlain {edit : Edit} (plain : edit.isPlain = true) : Agree edit edit := by
  intro left right twin changed done changed' done'
  cases edit <;> simp only [apply] at done done'
  case flavor | schemas | moreSchemas | compaction => exact twin.changeSettings done done'
  case ctes given =>
    cases given with
    | none => exact twin.setCtes .none done done'
    | some _ => cases plain
  case table => exact twin.setTable done done'
  case name => exact twin.changeCompound done done' fun _ _ twin => { twin with name := rfl }
  case fields | moreFields => exact twin.changeFields done done'
  case distinct => exact twin.changeSelect done done' fun _ _ twin => { twin with distinct := rfl }
  case groupBySelected => exact twin.changeSelect done done' fun _ _ twin => { twin with groupBySelected := rfl }
  case groups | moreGroups => exact twin.changeGroups done done'
  case order | noOrder => exact twin.changeOrders done done'
  case limit | offset | noPaging => exact twin.changePaging done done'
  case columns => exact twin.changeInsert done done' fun _ _ twin => { twin with columns := rfl }
  case assignment column assigned =>
    cases assigned with
    | value _ => cases plain
    | expression expression =>
      refine twin.changeUpdate done done' fun before before' twin => { twin with assignments := ?_ }
      exact List.rel_append twin.assignments (.cons ⟨rfl, .expression expression⟩ .nil)
  case other => exact twin.addOther done done'
  case returning | moreReturning => exact twin.changeReturning done done'
  case reset =>
    have none : Restriction.none.Twin .none := .chain .nil
    exact twin.changeSelect done done' fun _ _ twin =>
      { settings := by rw [Select.cleared, Select.cleared, twin.settings], ctes := .none, table := twin.table, name := twin.name,
        fields := rfl, distinct := rfl, joins := .nil, filter := none, groups := rfl, groupBySelected := rfl, having := none,
        orders := rfl, paging := rfl }
  all_goals cases plain

variable {condition condition' : Condition} {values values' : List Value} {restriction restriction' : Restriction}

theorem agree_where (connective : Connective) (conditions : condition.Twin condition') (length : values.length = values'.length) :
    Agree (.where connective condition values) (.where connective condition' values') :=
  fun _ _ twin _ done _ done' => twin.changeFilter
    (fun _ _ filters _ first _ first' => filters.restrict connective conditions length first first') done done'

theorem agree_having (conditions : condition.Twin condition') (length : values.length = values'.length) :
    Agree (.having condition values) (.having condition' values') :=
  fun _ _ twin _ done _ done' => twin.changeHaving
    (fun _ _ groups _ first _ first' => groups.linkTo .and conditions length first first') done done'

theorem agree_filter (restrictions : restriction.Twin restriction') : Agree (.filter restriction) (.filter restriction') := by
  intro left right twin changed done changed' done'
  simp only [apply] at done done'
  refine twin.changeFilter (fun _ _ _ _ first _ first' => ?_) done done'
  rw [← yields_pure.mp first, ← yields_pure.mp first']
  exact restrictions

theorem agree_groupFilter (restrictions : restriction.Twin restriction') :
    Agree (.groupFilter restriction) (.groupFilter restriction') := by
  intro left right twin changed done changed' done'
  simp only [apply] at done done'
  refine twin.changeHaving (fun _ _ _ _ first _ first' => ?_) done done'
  rw [← yields_pure.mp first, ← yields_pure.mp first']
  exact restrictions

theorem agree_ctes {ctes ctes' : List (Cte Query)} (parts : List.Forall₂ (Cte.Twin Query.PartTwin) ctes ctes') :
    Agree (.ctes (some ctes)) (.ctes (some ctes')) :=
  fun _ _ twin _ done _ done' => twin.setCtes (.some parts) done done'

theorem agree_join {join join' : Join Query} (joins : join.Twin Query.PartTwin join') : Agree (.join join) (.join join') :=
  fun _ _ twin _ done _ done' => twin.addJoin joins done done'

theorem agree_member {query query' : Query} (part : query.PartTwin query') (operator : SetOperator) :
    Agree (.member ⟨query, operator⟩) (.member ⟨query', operator⟩) :=
  fun _ _ twin _ done _ done' => twin.changeCompound done done' fun _ _ twin =>
    { twin with members := List.rel_append twin.members (.cons ⟨part, rfl⟩ .nil) }

theorem agree_source {query query' : Query} (part : query.PartTwin query') : Agree (.source query) (.source query') :=
  fun _ _ twin _ done _ done' => twin.changeInsert done done' fun _ _ twin => { twin with source := .some part }

theorem agree_row (column value value' : Value) : Agree (.row column value) (.row column value') := by
  refine fun _ _ twin _ done _ done' => twin.changeInsert done done' fun _ _ twin => { twin with rows := ?_ }
  rw [List.map_append, List.map_append, twin.rows]
  rfl

theorem agree_rows {rows rows' : List (Value × Value)} (columns : rows.map (·.1) = rows'.map (·.1)) :
    Agree (.rows rows) (.rows rows') :=
  fun _ _ twin _ done _ done' => twin.changeInsert done done' fun _ _ twin => { twin with rows := columns }

theorem agree_assignment (column value value' : Value) :
    Agree (.assignment column (.value value)) (.assignment column (.value value')) :=
  fun _ _ twin _ done _ done' => twin.changeUpdate done done' fun _ _ twin =>
    { twin with assignments := List.rel_append twin.assignments (.cons ⟨rfl, .value value value'⟩ .nil) }

theorem agree_assignments {rows rows' : List (Value × Value)} (columns : rows.map (·.1) = rows'.map (·.1)) :
    Agree (.assignments (rows.map fun (column, value) => (column, .value value)))
      (.assignments (rows'.map fun (column, value) => (column, .value value))) := by
  refine fun _ _ twin _ done _ done' => twin.changeUpdate done done' fun _ _ twin => { twin with assignments := ?_ }
  rw [← List.forall₂_eq_eq_eq, List.forall₂_map_left_iff, List.forall₂_map_right_iff] at columns
  exact List.forall₂_map_left_iff.mpr (List.forall₂_map_right_iff.mpr
    (columns.imp fun row row' same => ⟨same, .value row.2 row'.2⟩))

end Edit

end Statement

/-! ### Rows -/

namespace Value

/-- The columns of rows that are given as a dictionary, or as pairs. -/
def rowColumns : Value → Except Error (List Value)
  | dict _ entries => .ok (entries.map (·.1))
  | value => do (← value.items).mapM fun item => do return (← item.asPair).1

private theorem fst_of_takeOver {pair taken : Value × Value} (yields : (takeOver pair).Yields taken) : taken.1 = pair.1 := by
  obtain ⟨copy, -, same⟩ := yields.bind
  rw [← yields_pure.mp same]

private theorem columns_of_pairs {items : List Value} {rows : List (Value × Value)}
    (yields : Yields (items.mapM fun item => do takeOver (← item.asPair)) rows) :
    items.mapM (fun item : Value => do return (← item.asPair).1) = .ok (rows.map (·.1)) := by
  refine Outcome.mapM_eq_ok.mpr (List.forall₂_map_right_iff.mpr (yields.mapM.imp fun item row taken => ?_))
  obtain ⟨pair, read, taken⟩ := taken.bind
  rw [fst_of_takeOver taken, yields_lift.mp read]
  rfl

theorem rowColumns_of_takeOverPairs {value : Value} {rows : List (Value × Value)} (yields : (takeOverPairs value).Yields rows) :
    value.rowColumns = .ok (rows.map (·.1)) := by
  cases value with
  | dict label entries =>
    have columns : entries.map (·.1) = rows.map (·.1) := by
      rw [← List.forall₂_eq_eq_eq]
      exact List.forall₂_map_left_iff.mpr (List.forall₂_map_right_iff.mpr
        (yields.mapM.imp fun entry row taken => (fst_of_takeOver taken).symm))
    rw [rowColumns, columns]
  | _ =>
    obtain ⟨items, read, taken⟩ := yields.bind
    exact Outcome.bind_eq_ok.mpr ⟨items, yields_lift.mp read, columns_of_pairs taken⟩

end Value

end SqlCompose
