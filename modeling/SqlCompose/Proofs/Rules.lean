import Mathlib
import SqlCompose.Proofs.StatementParts
import SqlCompose.Session.Object

/-!
# Rules for what is held

Objects hold values at many places and at every depth. Rules ask something of the values that are bound to placeholders, something of all other values, something of the finished queries that stand as parts, and something of the labels under which somebody else holds a chain of a statement. An object is under the rules if all that it holds is as they ask, in the statements inside it as well; these were copied when they were taken over, so nobody holds a chain of theirs.

What is under some rules is under weaker ones (`Query.Under.mono`), and it stays under them when all its values are mapped in a way that the rules allow (`Query.Under.mapValues`).
-/

namespace SqlCompose

theorem forall_nothing {α : Type} {asked : α → Prop} : ∀ item ∈ ([] : List α), asked item :=
  List.forall_mem_nil asked

structure Rules where
  bound : Value → Prop
  other : Value → Prop
  finished : BuiltQuery → Prop
  hands : Label → Prop

namespace Rules

/-- The rules for what nobody else holds a part of. -/
def closed (rules : Rules) : Rules :=
  { rules with hands := fun _ => False }

/-- The rules without regard to who holds a part. -/
def lax (rules : Rules) : Rules :=
  { rules with hands := fun _ => True }

/-- What is under some rules is under others. -/
structure Implies (rules rules' : Rules) : Prop where
  bound : ∀ value, rules.bound value → rules'.bound value
  other : ∀ value, rules.other value → rules'.other value
  finished : ∀ query, rules.finished query → rules'.finished query
  hands : ∀ label, rules.hands label → rules'.hands label

theorem Implies.closed {rules rules' : Rules} (weaker : rules.Implies rules') : rules.closed.Implies rules'.closed :=
  ⟨weaker.bound, weaker.other, weaker.finished, fun _ absurdity => absurdity⟩

theorem Implies.lax {rules rules' : Rules} (weaker : rules.Implies rules') : rules.lax.Implies rules'.lax :=
  ⟨weaker.bound, weaker.other, weaker.finished, fun _ held => held⟩

theorem Implies.trans {rules rules' rules'' : Rules} (first : rules.Implies rules') (second : rules'.Implies rules'') :
    rules.Implies rules'' :=
  ⟨fun _ good => second.bound _ (first.bound _ good), fun _ good => second.other _ (first.other _ good),
    fun _ good => second.finished _ (first.finished _ good), fun _ held => second.hands _ (first.hands _ held)⟩

theorem closed_implies (rules : Rules) : rules.closed.Implies rules :=
  ⟨fun _ good => good, fun _ good => good, fun _ good => good, fun _ absurdity => absurdity.elim⟩

theorem implies_lax (rules : Rules) : rules.Implies rules.lax :=
  ⟨fun _ good => good, fun _ good => good, fun _ good => good, fun _ _ => trivial⟩

/-- A map takes what is under some rules to what is under others. -/
structure Through (f : Value → Value) (rules rules' : Rules) : Prop where
  bound : ∀ value, rules.bound value → rules'.bound (f value)
  other : ∀ value, rules.other value → rules'.other (f value)
  finished : ∀ query, rules.finished query → rules'.finished (query.mapValues f)
  hands : ∀ label, rules.hands label → rules'.hands label

theorem Through.closed {f : Value → Value} {rules rules' : Rules} (through : Through f rules rules') :
    Through f rules.closed rules'.closed :=
  ⟨through.bound, through.other, through.finished, fun _ absurdity => absurdity⟩

end Rules

/-! ### Further parts of a statement -/

namespace Statement

variable {Q : Type}

/-- The switches of a statement, besides those among its settings. -/
def switches : Statement Q → List Value
  | select s => [s.distinct, s.groupBySelected]
  | _ => []

/-- The values of a row, and those that columns are assigned. -/
def entries : Statement Q → List Value
  | insert s => s.rows.map (·.2)
  | update s => s.assignments.filterMap fun
    | (_, .value value) => some value
    | (_, .expression _) => none
  | _ => []

end Statement

/-! ### Under rules -/

section Under

variable (rules : Rules)

def Predicate.Under (predicate : Predicate) : Prop :=
  ∀ value ∈ predicate.values, rules.bound value

def Chain.Under (chain : Chain) : Prop :=
  ∀ link ∈ chain.links, link.2.Under rules

def Restriction.Under : Restriction → Prop
  | chain held => held.item.Under rules ∧ ∀ label ∈ held.holder, rules.hands label
  | predicate p => p.Under rules
  | unusable value _ => rules.other value

structure Settings.Under (settings : Settings) : Prop where
  schemas : ∀ schema ∈ settings.schemas, rules.other schema
  compact : rules.other settings.compact
  deep : rules.other settings.deep

/-- The name and the switch of an expression are under the rules. -/
structure Cte.Under {Q : Type} (cte : Cte Q) : Prop where
  name : rules.other cte.name
  recursive : rules.other cte.recursive

/-- The names and the condition of a join are under the rules. -/
structure Join.Under {Q : Type} (join : Join Q) : Prop where
  names : ∀ name ∈ join.names, rules.other name
  condition : ∀ predicate ∈ join.condition, predicate.Under rules

/-- What a statement holds besides the statements inside it is under the rules. -/
structure Statement.Under {Q : Type} (statement : Statement Q) : Prop where
  settings : ∀ settings ∈ statement.settings?, settings.Under rules
  ctes : ∀ cte ∈ statement.ctes, cte.Under rules
  joins : ∀ join ∈ statement.joins, join.Under rules
  fields : ∀ field ∈ statement.fields, rules.other field.value
  restrictions : ∀ restriction ∈ statement.restrictions, restriction.Under rules
  ownNames : ∀ name ∈ statement.ownNames, rules.other name
  switches : ∀ switch ∈ statement.switches, rules.other switch
  expressions : ∀ expression ∈ statement.expressions, rules.other expression
  entries : ∀ value ∈ statement.entries, rules.bound value
  leaf : ∀ query, statement = .built query → rules.finished query

/-- Everything that a query holds at any depth is under the rules. -/
inductive Query.Under : Rules → Query → Prop
  | of {rules : Rules} {statement : Statement Query} (own : statement.Under rules)
      (parts : ∀ child ∈ statement.children, Query.Under rules.closed child) : Query.Under rules (.of statement)

/-- An expression with its statement is under the rules. -/
structure Cte.UnderAll (cte : Cte Query) : Prop extends cte.Under rules where
  query : ∀ query ∈ cte.query, query.Under rules.closed

end Under

/-- The values of a column. -/
def Column.values (column : Column) : List Value :=
  [column.name, column.type, column.default, column.condition] ++ column.foreignKey.toList.flatMap fun key => [key.table, key.column]

namespace TableStatement

/-- What stands as the columns of a statement on a table. -/
def columns {C : Type} : TableStatement C → List C
  | create s => s.columns
  | alter s => s.additions ++ s.alterations.flatMap (·.2)
  | drop _ => []

/-- The names and the switch of a statement on a table. -/
def names : TableStatement Value → List Value
  | create s => s.target.name :: s.unlessExists :: s.target.schemas
  | alter s => s.target.name :: s.target.schemas ++ s.alterations.map (·.1) ++ s.drops
  | drop s => s.target.name :: s.ifExists :: s.target.schemas

end TableStatement

/-- What an object holds is under the rules. No object is a finished query. -/
def Object.Under (rules : Rules) : Object → Prop
  | chain c => c.Under rules
  | query q => q.Under rules ∧ ∀ built, q.statement ≠ .built built
  | cte c => c.UnderAll rules
  | ctes cs => ∀ c ∈ cs, c.UnderAll rules
  | column c => ∀ value ∈ c.values, rules.other value
  | table t => (∀ name ∈ t.names, rules.other name) ∧ ∀ column ∈ t.columns, rules.other column
  | queryMaker defaults => rules.other defaults.compact ∧ rules.other defaults.deep
  | tableMaker _ => True

/-! ### Weaker rules -/

section Mono

variable {rules rules' : Rules}

theorem Predicate.Under.mono {predicate : Predicate} (under : predicate.Under rules) (weaker : rules.Implies rules') :
    predicate.Under rules' :=
  fun value member => weaker.bound value (under value member)

theorem Chain.Under.mono {chain : Chain} (under : chain.Under rules) (weaker : rules.Implies rules') : chain.Under rules' :=
  fun link member => (under link member).mono weaker

theorem Restriction.Under.mono {restriction : Restriction} (under : restriction.Under rules) (weaker : rules.Implies rules') :
    restriction.Under rules' := by
  cases restriction with
  | chain held => exact ⟨under.1.mono weaker, fun label member => weaker.hands label (under.2 label member)⟩
  | predicate p => exact Predicate.Under.mono under weaker
  | unusable value _ => exact weaker.other value under

theorem Settings.Under.mono {settings : Settings} (under : settings.Under rules) (weaker : rules.Implies rules') :
    settings.Under rules' :=
  ⟨fun schema member => weaker.other schema (under.schemas schema member), weaker.other _ under.compact, weaker.other _ under.deep⟩

theorem Cte.Under.mono {Q : Type} {cte : Cte Q} (under : cte.Under rules) (weaker : rules.Implies rules') : cte.Under rules' :=
  ⟨weaker.other _ under.name, weaker.other _ under.recursive⟩

theorem Join.Under.mono {Q : Type} {join : Join Q} (under : join.Under rules) (weaker : rules.Implies rules') : join.Under rules' :=
  ⟨fun name member => weaker.other name (under.names name member),
    fun predicate member => (under.condition predicate member).mono weaker⟩

theorem Statement.Under.mono {Q : Type} {statement : Statement Q} (under : statement.Under rules) (weaker : rules.Implies rules') :
    statement.Under rules' where
  settings settings member := (under.settings settings member).mono weaker
  ctes cte member := (under.ctes cte member).mono weaker
  joins join member := (under.joins join member).mono weaker
  fields field member := weaker.other _ (under.fields field member)
  restrictions restriction member := (under.restrictions restriction member).mono weaker
  ownNames name member := weaker.other name (under.ownNames name member)
  switches switch member := weaker.other switch (under.switches switch member)
  expressions expression member := weaker.other expression (under.expressions expression member)
  entries value member := weaker.bound value (under.entries value member)
  leaf query same := weaker.finished query (under.leaf query same)

theorem Query.Under.mono {query : Query} (under : query.Under rules) (weaker : rules.Implies rules') : query.Under rules' := by
  induction under generalizing rules' with
  | of own _ ih => exact .of (own.mono weaker) fun child member => ih child member weaker.closed

theorem Cte.UnderAll.mono {cte : Cte Query} (under : cte.UnderAll rules) (weaker : rules.Implies rules') : cte.UnderAll rules' :=
  ⟨under.toUnder.mono weaker, fun query member => (under.query query member).mono weaker.closed⟩

theorem Object.Under.mono {object : Object} (under : object.Under rules) (weaker : rules.Implies rules') : object.Under rules' := by
  cases object with
  | chain c => exact Chain.Under.mono under weaker
  | query q => exact ⟨under.1.mono weaker, under.2⟩
  | cte c => exact Cte.UnderAll.mono under weaker
  | ctes cs => exact fun c member => (under c member).mono weaker
  | column c => exact fun value member => weaker.other value (under value member)
  | table t =>
    exact ⟨fun name member => weaker.other name (under.1 name member), fun column member => weaker.other column (under.2 column member)⟩
  | queryMaker defaults => exact ⟨weaker.other _ under.1, weaker.other _ under.2⟩
  | tableMaker _ => trivial

end Mono

/-! ### Mapped values -/

section Mapped

variable {rules rules' : Rules} {f : Value → Value}

theorem Predicate.Under.mapValues {predicate : Predicate} (under : predicate.Under rules) (through : Rules.Through f rules rules') :
    (predicate.mapValues f).Under rules' :=
  List.forall_mem_map.mpr fun value member => through.bound value (under value member)

theorem Chain.Under.mapValues {chain : Chain} (under : chain.Under rules) (through : Rules.Through f rules rules') :
    (chain.mapValues f).Under rules' :=
  List.forall_mem_map.mpr fun link member => (under link member).mapValues through

theorem Restriction.Under.mapValues {restriction : Restriction} (under : restriction.Under rules)
    (through : Rules.Through f rules rules') : (restriction.mapValues f).Under rules' := by
  cases restriction with
  | chain held => exact ⟨under.1.mapValues through, fun label member => through.hands label (under.2 label member)⟩
  | predicate p => exact Predicate.Under.mapValues under through
  | unusable value _ => exact through.other value under

theorem Settings.Under.mapValues {settings : Settings} (under : settings.Under rules) (through : Rules.Through f rules rules') :
    (settings.mapValues f).Under rules' :=
  ⟨List.forall_mem_map.mpr fun schema member => through.other schema (under.schemas schema member),
    through.other _ under.compact, through.other _ under.deep⟩

theorem Cte.Under.mapValues {Q : Type} {cte : Cte Q} (under : cte.Under rules) (through : Rules.Through f rules rules') :
    (cte.mapValues f).Under rules' :=
  ⟨through.other _ under.name, through.other _ under.recursive⟩

theorem Join.Under.mapValues {Q : Type} {join : Join Q} (under : join.Under rules) (through : Rules.Through f rules rules') :
    (join.mapValues f).Under rules' := by
  obtain ⟨kind, source, condition⟩ := join
  have mapped : ∀ predicate ∈ condition.map (Predicate.mapValues f), predicate.Under rules' := by
    intro predicate member
    obtain ⟨given, inside, rfl⟩ := Option.mem_map.mp member
    exact (under.condition given inside).mapValues through
  refine ⟨?_, mapped⟩
  cases source with
  | table reference name =>
    have both := under.names
    simp only [Join.names, List.forall_mem_cons] at both
    exact List.forall_mem_cons.mpr ⟨through.other _ both.1, List.forall_mem_singleton.mpr (through.other _ both.2.1)⟩
  | subquery query name =>
    exact List.forall_mem_singleton.mpr (through.other _ (under.names name (by simp [Join.names])))

namespace Statement

variable {Q : Type} (f) (statement : Statement Q)

private theorem ctes_mapValues : (statement.mapValues f).ctes = statement.ctes.map (Cte.mapValues f) := by
  cases statement with
  | select s => cases given : s.ctes <;> simp [Statement.mapValues, ctes, given]
  | compound s => cases given : s.ctes <;> simp [Statement.mapValues, ctes, given]
  | insert s => cases given : s.ctes <;> simp [Statement.mapValues, ctes, given]
  | update s => cases given : s.ctes <;> simp [Statement.mapValues, ctes, given]
  | delete s => cases given : s.ctes <;> simp [Statement.mapValues, ctes, given]
  | built _ | unbuildable => rfl

private theorem joins_mapValues : (statement.mapValues f).joins = statement.joins.map (Join.mapValues f) := by
  cases statement <;> rfl

private theorem fields_mapValues : (statement.mapValues f).fields = statement.fields.map (Field.mapValues f) := by
  cases statement <;> rfl

private theorem restrictions_mapValues :
    (statement.mapValues f).restrictions = statement.restrictions.map (Restriction.mapValues f) := by
  cases statement <;> rfl

private theorem settings?_mapValues : (statement.mapValues f).settings? = statement.settings?.map (Settings.mapValues f) := by
  cases statement <;> rfl

private theorem switches_mapValues : (statement.mapValues f).switches = statement.switches.map f := by
  cases statement <;> rfl

private theorem ownNames_mapValues : (statement.mapValues f).ownNames = statement.ownNames.map f := by
  cases statement with
  | select s => simp [Statement.mapValues, ownNames, OrderBy.mapValues]
  | compound s => simp [Statement.mapValues, ownNames, OrderBy.mapValues]
  | insert s => simp [Statement.mapValues, ownNames]
  | update s => cases given : s.origin <;> simp [Statement.mapValues, ownNames, given]
  | delete s => simp [Statement.mapValues, ownNames, List.map_flatMap, List.flatMap_map]
  | built _ | unbuildable => rfl

private theorem expressions_mapValues : (statement.mapValues f).expressions = statement.expressions.map f := by
  cases statement with
  | update s =>
    simp only [Statement.mapValues, expressions, List.filterMap_map, List.map_filterMap]
    congr 1
    funext assignment
    obtain ⟨column, assigned⟩ := assignment
    cases assigned <;> rfl
  | _ => rfl

private theorem entries_mapValues : (statement.mapValues f).entries = statement.entries.map f := by
  cases statement with
  | insert s => simp [Statement.mapValues, entries]
  | update s =>
    simp only [Statement.mapValues, entries, List.filterMap_map, List.map_filterMap]
    congr 1
    funext assignment
    obtain ⟨column, assigned⟩ := assignment
    cases assigned <;> rfl
  | _ => rfl

theorem children_mapValues : (statement.mapValues f).children = statement.children := by
  have queries : ∀ cte : Cte Q, (cte.mapValues f).query = cte.query := fun _ => rfl
  have joined : ∀ join : Join Q, (join.mapValues f).child? = join.child? := by
    intro join
    obtain ⟨kind, source, condition⟩ := join
    cases source <;> rfl
  simp only [children, ctes_mapValues, joins_mapValues, List.filterMap_map, Function.comp_def, queries, joined]
  cases statement <;> rfl

variable {f statement}

theorem Under.mapValues (under : statement.Under rules) (through : Rules.Through f rules rules') :
    (statement.mapValues f).Under rules' where
  settings := by
    rw [settings?_mapValues]
    intro settings member
    obtain ⟨given, inside, rfl⟩ := Option.mem_map.mp member
    exact (under.settings given inside).mapValues through
  ctes := by
    rw [ctes_mapValues]
    exact List.forall_mem_map.mpr fun cte member => (under.ctes cte member).mapValues through
  joins := by
    rw [joins_mapValues]
    exact List.forall_mem_map.mpr fun join member => (under.joins join member).mapValues through
  fields := by
    rw [fields_mapValues]
    exact List.forall_mem_map.mpr fun field member => through.other _ (under.fields field member)
  restrictions := by
    rw [restrictions_mapValues]
    exact List.forall_mem_map.mpr fun restriction member => (under.restrictions restriction member).mapValues through
  ownNames := by
    rw [ownNames_mapValues]
    exact List.forall_mem_map.mpr fun name member => through.other name (under.ownNames name member)
  switches := by
    rw [switches_mapValues]
    exact List.forall_mem_map.mpr fun switch member => through.other switch (under.switches switch member)
  expressions := by
    rw [expressions_mapValues]
    exact List.forall_mem_map.mpr fun expression member => through.other expression (under.expressions expression member)
  entries := by
    rw [entries_mapValues]
    exact List.forall_mem_map.mpr fun value member => through.bound value (under.entries value member)
  leaf := by
    intro query same
    cases statement with
    | built given =>
      cases same
      exact through.finished given (under.leaf given rfl)
    | _ => cases same

end Statement

theorem Query.mapValues_of (f : Value → Value) (statement : Statement Query) :
    Query.mapValues f (.of statement) = .of ((statement.map (Query.mapValues f)).mapValues f) :=
  fold_of _ statement

theorem Statement.Under.map {Q R : Type} {statement : Statement Q} (under : statement.Under rules) (g : Q → R) :
    (statement.map g).Under rules where
  settings := by
    rw [settings?_map]
    exact under.settings
  ctes := by
    rw [ctes_map]
    exact List.forall_mem_map.mpr fun cte member => ⟨(under.ctes cte member).name, (under.ctes cte member).recursive⟩
  joins := by
    rw [joins_map]
    refine List.forall_mem_map.mpr fun join member => ⟨?_, (under.joins join member).condition⟩
    obtain ⟨kind, source, condition⟩ := join
    cases source <;> exact (under.joins _ member).names
  fields := by
    rw [fields_map]
    exact under.fields
  restrictions := by
    rw [restrictions_map]
    exact under.restrictions
  ownNames := by
    have same : (statement.map g).ownNames = statement.ownNames := by cases statement <;> rfl
    rw [same]
    exact under.ownNames
  switches := by
    have same : (statement.map g).switches = statement.switches := by cases statement <;> rfl
    rw [same]
    exact under.switches
  expressions := by
    rw [expressions_map]
    exact under.expressions
  entries := by
    have same : (statement.map g).entries = statement.entries := by cases statement <;> rfl
    rw [same]
    exact under.entries
  leaf := by
    intro query same
    cases statement with
    | built given =>
      cases same
      exact under.leaf _ rfl
    | _ => cases same

theorem Query.Under.mapValues {query : Query} (under : query.Under rules) (through : Rules.Through f rules rules') :
    (query.mapValues f).Under rules' := by
  induction under generalizing rules' with
  | of own _ ih =>
    rw [mapValues_of]
    refine .of ((own.map _).mapValues through) ?_
    rw [Statement.children_mapValues, Statement.children_map]
    exact List.forall_mem_map.mpr fun child member => ih child member through.closed

theorem Cte.UnderAll.mapValues {cte : Cte Query} (under : cte.UnderAll rules) (through : Rules.Through f rules rules') :
    (cte.mapAllValues f).UnderAll rules' := by
  refine ⟨⟨through.other _ under.name, through.other _ under.recursive⟩, fun query member => ?_⟩
  obtain ⟨given, inside, rfl⟩ := Option.mem_map.mp member
  exact (under.query given inside).mapValues through.closed

end Mapped

/-! ### Chains in the hands of others -/

namespace Statement

variable {Q : Type}

theorem restrictions_detached (statement : Statement Q) :
    statement.detached.restrictions = statement.restrictions.map Restriction.detached := by
  cases statement <;> rfl

theorem children_detached (statement : Statement Q) : statement.detached.children = statement.children := by
  cases statement <;> rfl

theorem restrictions_resolved (find? : Label → Option Chain) (statement : Statement Q) :
    (statement.resolved find?).restrictions = statement.restrictions.map (Restriction.resolved find?) := by
  cases statement <;> rfl

theorem children_resolved (find? : Label → Option Chain) (statement : Statement Q) :
    (statement.resolved find?).children = statement.children := by
  cases statement <;> rfl

variable {rules : Rules} {statement : Statement Q}

/-- Other restrictions under the rules, in other hands, with everything else as it was. -/
private theorem Under.withRestrictions {hands : Label → Prop} {other : Statement Q} (under : statement.Under rules)
    (settings : other.settings? = statement.settings?) (ctes : other.ctes = statement.ctes) (joins : other.joins = statement.joins)
    (fields : other.fields = statement.fields) (ownNames : other.ownNames = statement.ownNames)
    (switches : other.switches = statement.switches) (expressions : other.expressions = statement.expressions)
    (entries : other.entries = statement.entries) (leaf : ∀ query, other = .built query → statement = .built query)
    (restrictions : ∀ restriction ∈ other.restrictions, restriction.Under { rules with hands }) :
    other.Under { rules with hands } := by
  refine ⟨?_, ?_, ?_, ?_, restrictions, ?_, ?_, ?_, ?_, fun query same => under.leaf query (leaf query same)⟩
  · rw [settings]
    exact fun settings member => ⟨(under.settings settings member).schemas, (under.settings settings member).compact,
      (under.settings settings member).deep⟩
  · rw [ctes]
    exact fun cte member => ⟨(under.ctes cte member).name, (under.ctes cte member).recursive⟩
  · rw [joins]
    exact fun join member => ⟨(under.joins join member).names, (under.joins join member).condition⟩
  · rw [fields]
    exact under.fields
  · rw [ownNames]
    exact under.ownNames
  · rw [switches]
    exact under.switches
  · rw [expressions]
    exact under.expressions
  · rw [entries]
    exact under.entries

theorem Under.detached (under : statement.Under rules) : statement.detached.Under rules.closed := by
  have restrictions : ∀ restriction ∈ statement.detached.restrictions, restriction.Under rules.closed := by
    rw [restrictions_detached]
    refine List.forall_mem_map.mpr fun restriction member => ?_
    have given := under.restrictions restriction member
    cases restriction with
    | chain held => exact ⟨given.1, by rintro _ ⟨⟩⟩
    | predicate p => exact given
    | unusable _ _ => exact given
  cases statement <;> exact under.withRestrictions rfl rfl rfl rfl rfl rfl rfl rfl (fun _ same => by cases same <;> rfl) restrictions

theorem Under.resolved (under : statement.Under rules) {find? : Label → Option Chain}
    (chains : ∀ label, rules.hands label → ∀ chain, find? label = some chain → chain.Under rules) :
    (statement.resolved find?).Under rules := by
  have restrictions : ∀ restriction ∈ (statement.resolved find?).restrictions, restriction.Under rules := by
    rw [restrictions_resolved]
    refine List.forall_mem_map.mpr fun restriction member => ?_
    have given := under.restrictions restriction member
    cases restriction with
    | chain held =>
      refine ⟨?_, given.2⟩
      change Chain.Under rules ((held.holder.bind find?).getD held.item)
      cases found : held.holder.bind find? with
      | none => exact given.1
      | some chain =>
        obtain ⟨label, here, there⟩ := Option.bind_eq_some_iff.mp found
        exact chains label (given.2 label here) chain there
    | predicate p => exact given
    | unusable _ _ => exact given
  cases statement <;> exact under.withRestrictions rfl rfl rfl rfl rfl rfl rfl rfl (fun _ same => by cases same <;> rfl) restrictions

end Statement

section Objects

variable {rules rules' : Rules}

theorem Query.Under.detached {query : Query} (under : query.Under rules) : query.detached.Under rules.closed := by
  obtain ⟨own, parts⟩ := under
  refine .of own.detached ?_
  rw [statement, Statement.children_detached]
  exact parts

theorem Object.Under.resolved {object : Object} (under : object.Under rules) {find? : Label → Option Chain}
    (chains : ∀ label, rules.hands label → ∀ chain, find? label = some chain → chain.Under rules) :
    (object.resolved find?).Under rules := by
  cases object with
  | query q =>
    obtain ⟨⟨own, parts⟩, unfinished⟩ := under
    rename_i statement
    refine ⟨.of (own.resolved chains) ?_, fun built same => ?_⟩
    · rw [Query.statement, Statement.children_resolved]
      exact parts
    · cases statement with
      | built given => exact unfinished given rfl
      | _ => cases same
  | _ => exact under

theorem Object.Under.mapValues {object : Object} (under : object.Under rules) {f : Value → Value}
    (through : Rules.Through f rules rules') : (object.mapValues f).Under rules' := by
  cases object with
  | chain c => exact Chain.Under.mapValues under through
  | query q =>
    refine ⟨under.1.mapValues through, fun built same => ?_⟩
    obtain ⟨⟨own, parts⟩, unfinished⟩ := under
    rename_i statement
    rw [Query.mapValues_of] at same
    cases statement with
    | built given => exact unfinished given rfl
    | _ => cases same
  | cte c => exact Cte.UnderAll.mapValues under through
  | ctes cs => exact List.forall_mem_map.mpr fun c member => (under c member).mapValues through
  | column c =>
    have values : (c.mapValues f).values = c.values.map f := by
      cases given : c.foreignKey <;> simp [Column.mapValues, Column.values, given]
    change ∀ value ∈ (c.mapValues f).values, _
    rw [values]
    exact List.forall_mem_map.mpr fun value member => through.other value (under value member)
  | table t =>
    have names : (t.mapValues f).names = t.names.map f := by
      cases t <;> simp [TableStatement.mapValues, TableStatement.names, TableTarget.mapValues]
    have columns : (t.mapValues f).columns = t.columns.map f := by
      cases t <;> simp [TableStatement.mapValues, TableStatement.columns, List.map_flatMap, List.flatMap_map]
    change (∀ name ∈ (t.mapValues f).names, _) ∧ ∀ column ∈ (t.mapValues f).columns, _
    rw [names, columns]
    exact ⟨List.forall_mem_map.mpr fun name member => through.other name (under.1 name member),
      List.forall_mem_map.mpr fun column member => through.other column (under.2 column member)⟩
  | queryMaker defaults => exact ⟨through.other _ under.1, through.other _ under.2⟩
  | tableMaker _ => trivial

end Objects

end SqlCompose
