import Mathlib
import SqlCompose.Proofs.Rules

/-!
# Values that a map leaves alone

A map over all values of an object leaves the object as it is if it leaves each of its values as it is. So an object that holds no reference to another one looks the same however the others have changed, and a change in place of a container that lies nowhere in an object does not reach it.
-/

namespace SqlCompose

/-- The rules for objects whose values a map leaves as they are. -/
def Rules.fixed (f : Value → Value) : Rules where
  bound value := f value = value
  other value := f value = value
  finished query := query.mapValues f = query
  hands _ := True

section Fixed

variable {f : Value → Value}

private theorem map_items_eq {α : Type} {g : α → α} {items : List α} (same : ∀ item ∈ items, g item = item) : items.map g = items :=
  (List.map_congr_left same).trans (List.map_id' items)

private theorem option_map_eq {α : Type} {g : α → α} {item : Option α} (same : ∀ given ∈ item, g given = given) : item.map g = item := by
  cases item with
  | none => rfl
  | some given => exact congrArg some (same given rfl)

/-! ### Parts of a statement -/

theorem Predicate.Under.mapValues_eq {predicate : Predicate} (under : predicate.Under (Rules.fixed f)) :
    predicate.mapValues f = predicate := by
  obtain ⟨text, values⟩ := predicate
  exact congrArg (Predicate.mk text) (map_items_eq under)

theorem Chain.Under.mapValues_eq {chain : Chain} (under : chain.Under (Rules.fixed f)) : chain.mapValues f = chain := by
  obtain ⟨links⟩ := chain
  exact congrArg Chain.mk (map_items_eq fun link member => Prod.ext rfl (Predicate.Under.mapValues_eq (under link member)))

private theorem restriction_eq {restriction : Restriction} (under : restriction.Under (Rules.fixed f)) :
    restriction.mapValues f = restriction := by
  cases restriction with
  | chain held =>
    obtain ⟨chain, holder⟩ := held
    exact congrArg (fun chain => Restriction.chain ⟨chain, holder⟩) (Chain.Under.mapValues_eq under.1)
  | predicate p => exact congrArg Restriction.predicate (Predicate.Under.mapValues_eq under)
  | unusable value copied => exact congrArg (Restriction.unusable · copied) under

private theorem settings_eq {settings : Settings} (under : settings.Under (Rules.fixed f)) : settings.mapValues f = settings := by
  obtain ⟨flavor, schemas, compact, deep⟩ := settings
  have names : schemas.map f = schemas := map_items_eq under.schemas
  have first : f compact = compact := under.compact
  have second : f deep = deep := under.deep
  simp only [Settings.mapValues, names, first, second]

private theorem cte_eq {Q : Type} {cte : Cte Q} (under : cte.Under (Rules.fixed f)) : cte.mapValues f = cte := by
  obtain ⟨name, query, recursive⟩ := cte
  have first : f name = name := under.name
  have second : f recursive = recursive := under.recursive
  simp only [Cte.mapValues, first, second]

private theorem join_eq {Q : Type} {join : Join Q} (under : join.Under (Rules.fixed f)) : join.mapValues f = join := by
  obtain ⟨kind, source, condition⟩ := join
  have written : condition.map (Predicate.mapValues f) = condition :=
    option_map_eq fun predicate member => Predicate.Under.mapValues_eq (under.condition predicate member)
  have names := under.names
  cases source with
  | table reference name =>
    have first : f reference = reference := names reference List.mem_cons_self
    have second : f name = name := names name (List.mem_cons_of_mem _ List.mem_cons_self)
    simp only [Join.mapValues, written, first, second]
  | subquery query name =>
    have named : f name = name := names name List.mem_cons_self
    simp only [Join.mapValues, written, named]

private theorem fields_eq {fields : List Field} (same : ∀ field ∈ fields, f field.value = field.value) :
    fields.map (Field.mapValues f) = fields :=
  map_items_eq fun ⟨_, raw⟩ member => congrArg (Field.mk · raw) (same _ member)

private theorem orders_eq {orders : List OrderBy} (same : ∀ field ∈ orders.map (·.field), f field = field) :
    orders.map (OrderBy.mapValues f) = orders := by
  rw [List.forall_mem_map] at same
  refine map_items_eq fun order member => ?_
  obtain ⟨field, direction⟩ := order
  exact congrArg (OrderBy.mk · direction) (same _ member)

private theorem ctes_eq {Q : Type} {ctes : Option (List (Cte Q))} (under : ∀ cte ∈ ctes.getD [], cte.Under (Rules.fixed f)) :
    ctes.map (·.map (Cte.mapValues f)) = ctes :=
  option_map_eq fun list given => map_items_eq fun cte member => cte_eq (under cte (by rwa [Option.mem_def.mp given]))

private theorem assigned_eq {assignments : List (Value × Assigned)} (columns : ∀ column ∈ assignments.map (·.1), f column = column)
    (expressions : ∀ expression ∈ (Statement.update (Q := Unit) { assignments }).expressions, f expression = expression)
    (entries : ∀ value ∈ (Statement.update (Q := Unit) { assignments }).entries, f value = value) :
    assignments.map (fun (column, assigned) => (f column, assigned.mapValues f)) = assignments := by
  rw [List.forall_mem_map] at columns
  refine map_items_eq fun (column, assigned) member => Prod.ext (columns _ member) ?_
  cases assigned with
  | value v => exact congrArg Assigned.value (entries v (List.mem_filterMap.mpr ⟨_, member, rfl⟩))
  | expression e => exact congrArg Assigned.expression (expressions e (List.mem_filterMap.mpr ⟨_, member, rfl⟩))

/-! ### Statements and queries -/

namespace Statement

variable {Q : Type}

private theorem pairs_eq {pairs : List (Value × Value)} (first : ∀ name ∈ pairs.map (·.1), f name = name)
    (second : ∀ name ∈ pairs.map (·.2), f name = name) : pairs.map (fun (left, right) => (f left, f right)) = pairs := by
  rw [List.forall_mem_map] at first second
  exact map_items_eq fun pair member => Prod.ext (first pair member) (second pair member)

private theorem select_eq {s : Select Q} (under : (select s).Under (Rules.fixed f)) : (select s).mapValues f = select s := by
  have settings := settings_eq (under.settings _ rfl)
  have ctes := ctes_eq under.ctes
  have fields : s.fields.map (Field.mapValues f) = s.fields := fields_eq under.fields
  have joins : s.joins.map (Join.mapValues f) = s.joins := map_items_eq fun join member => join_eq (under.joins join member)
  have filter := restriction_eq (under.restrictions s.filter List.mem_cons_self)
  have having := restriction_eq (under.restrictions s.having (List.mem_cons_of_mem _ List.mem_cons_self))
  obtain ⟨(table : f s.table = s.table), further⟩ := List.forall_mem_cons.mp under.ownNames
  obtain ⟨(name : f s.name = s.name), further⟩ := List.forall_mem_cons.mp further
  obtain ⟨groups, orders⟩ := List.forall_mem_append.mp further
  obtain ⟨(distinct : f s.distinct = s.distinct), further⟩ := List.forall_mem_cons.mp under.switches
  have selected : f s.groupBySelected = s.groupBySelected := further _ List.mem_cons_self
  simp only [mapValues, settings, ctes, table, name, fields, distinct, joins, filter, map_items_eq groups, selected, having,
    orders_eq orders]

private theorem compound_eq {s : Compound Q} (under : (compound s).Under (Rules.fixed f)) :
    (compound s).mapValues f = compound s := by
  have settings := settings_eq (under.settings _ rfl)
  have ctes := ctes_eq under.ctes
  have fields : s.fields.map (Field.mapValues f) = s.fields := fields_eq under.fields
  have filter := restriction_eq (under.restrictions s.filter List.mem_cons_self)
  have having := restriction_eq (under.restrictions s.having (List.mem_cons_of_mem _ List.mem_cons_self))
  obtain ⟨(name : f s.name = s.name), further⟩ := List.forall_mem_cons.mp under.ownNames
  obtain ⟨groups, orders⟩ := List.forall_mem_append.mp further
  simp only [mapValues, settings, ctes, name, fields, filter, map_items_eq groups, having, orders_eq orders]

private theorem insert_eq {s : Insert Q} (under : (insert s).Under (Rules.fixed f)) : (insert s).mapValues f = insert s := by
  have settings := settings_eq (under.settings _ rfl)
  have ctes := ctes_eq under.ctes
  have returning : s.returning.map (Field.mapValues f) = s.returning := fields_eq under.fields
  obtain ⟨(table : f s.table = s.table), further⟩ := List.forall_mem_cons.mp under.ownNames
  obtain ⟨named, columns⟩ := List.forall_mem_append.mp further
  simp only [mapValues, settings, ctes, table, pairs_eq named under.entries, map_items_eq columns, returning]

private theorem update_eq {s : Update Q} (under : (update s).Under (Rules.fixed f)) : (update s).mapValues f = update s := by
  have settings := settings_eq (under.settings _ rfl)
  have ctes := ctes_eq under.ctes
  have returning : s.returning.map (Field.mapValues f) = s.returning := fields_eq under.fields
  have joins : s.joins.map (Join.mapValues f) = s.joins := map_items_eq fun join member => join_eq (under.joins join member)
  have filter := restriction_eq (under.restrictions s.filter List.mem_cons_self)
  obtain ⟨(table : f s.table = s.table), further⟩ := List.forall_mem_cons.mp under.ownNames
  obtain ⟨(name : f s.name = s.name), further⟩ := List.forall_mem_cons.mp further
  obtain ⟨columns, used⟩ := List.forall_mem_append.mp further
  have assigned := assigned_eq columns under.expressions under.entries
  have origin : s.origin.map (fun (table, name) => (f table, f name)) = s.origin := option_map_eq fun pair given =>
    have both := List.forall_mem_flatMap.mp used pair (Option.mem_toList.mpr given)
    Prod.ext (both _ List.mem_cons_self) (both _ (List.mem_cons_of_mem _ List.mem_cons_self))
  simp only [mapValues, settings, ctes, table, name, assigned, origin, joins, filter, returning]

private theorem delete_eq {s : Delete Q} (under : (delete s).Under (Rules.fixed f)) : (delete s).mapValues f = delete s := by
  have settings := settings_eq (under.settings _ rfl)
  have ctes := ctes_eq under.ctes
  have returning : s.returning.map (Field.mapValues f) = s.returning := fields_eq under.fields
  have filter := restriction_eq (under.restrictions s.filter List.mem_cons_self)
  obtain ⟨(table : f s.table = s.table), further⟩ := List.forall_mem_cons.mp under.ownNames
  obtain ⟨(name : f s.name = s.name), used⟩ := List.forall_mem_cons.mp further
  have others : s.others.map (fun (table, name) => (f table, f name)) = s.others := map_items_eq fun pair member =>
    have both := List.forall_mem_flatMap.mp used pair member
    Prod.ext (both _ List.mem_cons_self) (both _ (List.mem_cons_of_mem _ List.mem_cons_self))
  simp only [mapValues, settings, ctes, table, name, others, filter, returning]

theorem Under.mapValues_eq {statement : Statement Q} (under : statement.Under (Rules.fixed f)) :
    statement.mapValues f = statement := by
  cases statement with
  | built query => exact congrArg built (under.leaf query rfl)
  | select s => exact select_eq under
  | compound s => exact compound_eq under
  | insert s => exact insert_eq under
  | update s => exact update_eq under
  | delete s => exact delete_eq under
  | unbuildable => rfl

private theorem ctes_map_eq {g : Q → Q} {ctes : Option (List (Cte Q))} (same : ∀ child ∈ (ctes.getD []).filterMap (·.query), g child = child) :
    ctes.map (·.map (Cte.map g)) = ctes := by
  refine option_map_eq fun list given => map_items_eq fun cte member => ?_
  obtain ⟨name, query, recursive⟩ := cte
  rw [Option.mem_def.mp given] at same
  have inside : query.map g = query := option_map_eq fun child there => same child (List.mem_filterMap.mpr ⟨_, member, there⟩)
  exact congrArg (Cte.mk name · recursive) inside

private theorem joins_map_eq {g : Q → Q} {joins : List (Join Q)} (same : ∀ child ∈ joins.filterMap Join.child?, g child = child) :
    joins.map (Join.map g) = joins := by
  refine map_items_eq fun join member => ?_
  obtain ⟨kind, source, condition⟩ := join
  cases source with
  | table reference name => rfl
  | subquery query name =>
    have inside : g query = query := same query (List.mem_filterMap.mpr ⟨_, member, rfl⟩)
    simp only [Join.map, inside]

/-- A map that leaves the statements inside a statement as they are leaves the statement as it is. -/
theorem map_eq {g : Q → Q} {statement : Statement Q} (same : ∀ child ∈ statement.children, g child = child) :
    statement.map g = statement := by
  obtain ⟨either, own⟩ := List.forall_mem_append.mp same
  obtain ⟨inCtes, inJoins⟩ := List.forall_mem_append.mp either
  cases statement with
  | built query => rfl
  | select s =>
    have joins : s.joins.map (Join.map g) = s.joins := joins_map_eq inJoins
    simp only [map, Select.map, ctes_map_eq inCtes, joins]
  | compound s =>
    have members : s.members.map (fun member => (⟨g member.query, member.operator⟩ : Member Q)) = s.members :=
      map_items_eq fun member inside => congrArg (Member.mk · member.operator) (own _ (List.mem_map_of_mem inside))
    simp only [map, Compound.map, ctes_map_eq inCtes, members]
  | insert s =>
    have source : s.source.map g = s.source := option_map_eq fun query given => own query (Option.mem_toList.mpr given)
    simp only [map, Insert.map, ctes_map_eq inCtes, source]
  | update s =>
    have joins : s.joins.map (Join.map g) = s.joins := joins_map_eq inJoins
    simp only [map, Update.map, ctes_map_eq inCtes, joins]
  | delete s => simp only [map, Delete.map, ctes_map_eq inCtes]
  | unbuildable => rfl

end Statement

/-- If a map leaves the values of a query as they are, at any depth, it leaves the query as it is. -/
theorem Query.Under.mapValues_eq {rules : Rules} {query : Query} (under : query.Under rules) (leaves : rules.Implies (Rules.fixed f)) :
    query.mapValues f = query := by
  induction under with
  | of own _ ih =>
    rw [mapValues_of, Statement.map_eq fun child member => ih child member ((Rules.closed_implies _).trans leaves)]
    exact congrArg Query.of (own.mono leaves).mapValues_eq

private theorem Cte.UnderAll.mapAllValues_eq {cte : Cte Query} (under : cte.UnderAll (Rules.fixed f)) : cte.mapAllValues f = cte := by
  have inside : cte.query.map (Query.mapValues f) = cte.query := option_map_eq fun query given =>
    (under.query query given).mapValues_eq (Rules.closed_implies _)
  rw [mapAllValues, cte_eq under.toUnder]
  exact congrArg (Cte.mk cte.name · cte.recursive) inside

/-! ### Objects -/

private theorem target_eq {target : TableTarget} (name : f target.name = target.name)
    (schemas : ∀ schema ∈ target.schemas, f schema = schema) : target.mapValues f = target := by
  simp only [TableTarget.mapValues, name, map_items_eq schemas]

private theorem table_eq {statement : TableStatement Value} (under : (Object.table statement).Under (Rules.fixed f)) :
    statement.mapValues f = statement := by
  obtain ⟨names, columns⟩ := under
  cases statement with
  | create s =>
    obtain ⟨name, further⟩ := List.forall_mem_cons.mp names
    obtain ⟨(guard : f s.unlessExists = s.unlessExists), schemas⟩ := List.forall_mem_cons.mp further
    have columns : s.columns.map f = s.columns := map_items_eq columns
    simp only [TableStatement.mapValues, target_eq name schemas, guard, columns]
  | alter s =>
    obtain ⟨name, further⟩ := List.forall_mem_cons.mp names
    obtain ⟨either, drops⟩ := List.forall_mem_append.mp further
    obtain ⟨schemas, renamed⟩ := List.forall_mem_append.mp either
    obtain ⟨additions, inside⟩ := List.forall_mem_append.mp columns
    have alterations (change : Value × List Value → Value × List Value) (shape : ∀ entry, change entry = (f entry.1, entry.2.map f)) :
        s.alterations.map change = s.alterations :=
      map_items_eq fun entry member => (shape entry).trans (Prod.ext (List.forall_mem_map.mp renamed entry member)
        (map_items_eq (List.forall_mem_flatMap.mp inside entry member)))
    simp only [TableStatement.mapValues, target_eq name schemas, map_items_eq additions, map_items_eq drops]
    rw [alterations]
    exact fun _ => rfl
  | drop s =>
    obtain ⟨name, further⟩ := List.forall_mem_cons.mp names
    obtain ⟨(guard : f s.ifExists = s.ifExists), schemas⟩ := List.forall_mem_cons.mp further
    simp only [TableStatement.mapValues, target_eq name schemas, guard]

theorem Column.mapValues_eq {column : Column} (same : ∀ value ∈ column.values, f value = value) : column.mapValues f = column := by
  obtain ⟨own, keys⟩ := List.forall_mem_append.mp same
  simp only [List.forall_mem_cons] at own
  obtain ⟨name, type, standard, condition, _⟩ := own
  have key : column.foreignKey.map (fun key => { key with table := f key.table, column := f key.column }) = column.foreignKey :=
    option_map_eq fun key given => by
      have both := List.forall_mem_flatMap.mp keys key (Option.mem_toList.mpr given)
      simp only [both key.table List.mem_cons_self, both key.column (List.mem_cons_of_mem _ List.mem_cons_self)]
  simp only [mapValues, name, type, standard, condition, key]

/-- If a map leaves all values of an object as they are, it leaves the object as it is. -/
theorem Object.Under.mapValues_eq {object : Object} (under : object.Under (Rules.fixed f)) : object.mapValues f = object := by
  cases object with
  | chain c => exact congrArg Object.chain (Chain.Under.mapValues_eq under)
  | query q => exact congrArg Object.query (under.1.mapValues_eq ⟨fun _ good => good, fun _ good => good, fun _ good => good, fun _ good => good⟩)
  | cte c => exact congrArg Object.cte (Cte.UnderAll.mapAllValues_eq under)
  | ctes cs => exact congrArg Object.ctes (map_items_eq fun c member => Cte.UnderAll.mapAllValues_eq (under c member))
  | column c => exact congrArg Object.column (Column.mapValues_eq under)
  | table t => exact congrArg Object.table (table_eq under)
  | queryMaker defaults =>
    obtain ⟨(compact : f defaults.compact = defaults.compact), (deep : f defaults.deep = defaults.deep)⟩ := under
    simp only [Object.mapValues, compact, deep]
  | tableMaker flavor => rfl

end Fixed

end SqlCompose
