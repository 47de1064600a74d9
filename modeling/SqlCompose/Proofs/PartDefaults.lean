import Mathlib
import SqlCompose.Proofs.BoundValues
import SqlCompose.Proofs.StatementParts

/-!
# Defaults of parts

Every way to take a builder into another one builds it without compaction, so the defaults of compaction that it was given are never asked for. Taking these defaults away from all builders in a statement (`Query.plain`) changes nothing of what the statement makes of them, and it can be done before a change of the statement or after.

`Query.Redefaulted` relates what two runs of the same calls make, where only in one of them the defaults of builders are set, at any time and to anything, before these builders are taken into others. Both runs of a call begin with the same trace; they are then found to end with the same one, and to fail only together.
-/

namespace SqlCompose

open Build

/-! ### Statements without defaults -/

namespace Statement

variable {Q R S : Type}

/-- The statement with other defaults of compaction. -/
def withDefaults (compact deep : Value) : Statement Q → Statement Q
  | select s => select { s with settings := { s.settings with compact, deep } }
  | compound s => compound { s with settings := { s.settings with compact, deep } }
  | insert s => insert { s with settings := { s.settings with compact, deep } }
  | update s => update { s with settings := { s.settings with compact, deep } }
  | delete s => delete { s with settings := { s.settings with compact, deep } }
  | other => other

theorem map_withDefaults (f : Q → R) (compact deep : Value) (statement : Statement Q) :
    (statement.withDefaults compact deep).map f = (statement.map f).withDefaults compact deep := by
  cases statement <;> rfl

theorem withDefaults_withDefaults (compact deep compact' deep' : Value) (statement : Statement Q) :
    (statement.withDefaults compact' deep').withDefaults compact deep = statement.withDefaults compact deep := by
  cases statement <;> rfl

/-- As a part of another statement it is built without regard to its defaults. -/
theorem toChild_withDefaults (compact deep : Value) (statement : Statement Child) :
    (statement.withDefaults compact deep).toChild = statement.toChild := by
  cases statement <;> rfl

private theorem joins_map_map (f : Q → R) (g : R → S) (joins : List (Join Q)) :
    (joins.map (Join.map f)).map (Join.map g) = joins.map (Join.map (g ∘ f)) := by
  rw [List.map_map]
  refine List.map_congr_left fun join _ => ?_
  obtain ⟨kind, source, condition⟩ := join
  cases source <;> rfl

private theorem ctes_map_map (f : Q → R) (g : R → S) (ctes : Option (List (Cte Q))) :
    (ctes.map (·.map (Cte.map f))).map (·.map (Cte.map g)) = ctes.map (·.map (Cte.map (g ∘ f))) := by
  cases ctes with
  | none => rfl
  | some ctes => simp [Cte.map, Function.comp_def]

theorem map_map (f : Q → R) (g : R → S) (statement : Statement Q) : (statement.map f).map g = statement.map (g ∘ f) := by
  cases statement with
  | built _ | unbuildable => rfl
  | select s => simp only [map, Select.map, joins_map_map, ctes_map_map]
  | compound s => simp only [map, Compound.map, ctes_map_map, List.map_map, Function.comp_def]
  | insert s =>
    rw [map, map, map, Insert.map, Insert.map, ctes_map_map, Option.map_map g f s.source]
    rfl
  | update s => simp only [map, Update.map, joins_map_map, ctes_map_map]
  | delete s => simp only [map, Delete.map, ctes_map_map]

section Congr

variable {f g : Q → R}

private theorem joins_map_congr {joins : List (Join Q)} (same : ∀ part ∈ joins.filterMap Join.child?, f part = g part) :
    joins.map (Join.map f) = joins.map (Join.map g) := by
  refine List.map_congr_left fun join member => ?_
  obtain ⟨kind, source, condition⟩ := join
  cases source with
  | table reference name => rfl
  | subquery query name =>
    have equal := same query (List.mem_filterMap.mpr ⟨_, member, rfl⟩)
    simp only [Join.map, equal]

private theorem ctes_map_congr {ctes : Option (List (Cte Q))}
    (same : ∀ part ∈ (ctes.getD []).filterMap (·.query), f part = g part) :
    ctes.map (·.map (Cte.map f)) = ctes.map (·.map (Cte.map g)) := by
  cases ctes with
  | none => rfl
  | some ctes =>
    refine congrArg some (List.map_congr_left fun cte member => ?_)
    obtain ⟨name, query, recursive⟩ := cte
    cases query with
    | none => rfl
    | some query =>
      have equal := same query (List.mem_filterMap.mpr ⟨_, member, rfl⟩)
      simp only [Cte.map, Option.map_some, equal]

theorem map_congr {statement : Statement Q} (same : ∀ part ∈ statement.children, f part = g part) :
    statement.map f = statement.map g := by
  have inCtes : ∀ part ∈ statement.ctes.filterMap (·.query), f part = g part := fun part member =>
    same part (List.mem_append_left _ (List.mem_append_left _ member))
  have inJoins : ∀ part ∈ statement.joins.filterMap Join.child?, f part = g part := fun part member =>
    same part (List.mem_append_left _ (List.mem_append_right _ member))
  cases statement with
  | built _ | unbuildable => rfl
  | select s =>
    have ctes : s.ctes.map (·.map (Cte.map f)) = s.ctes.map (·.map (Cte.map g)) := ctes_map_congr inCtes
    have joins : s.joins.map (Join.map f) = s.joins.map (Join.map g) := joins_map_congr inJoins
    simp only [map, Select.map, ctes, joins]
  | compound s =>
    have ctes : s.ctes.map (·.map (Cte.map f)) = s.ctes.map (·.map (Cte.map g)) := ctes_map_congr inCtes
    have members : s.members.map (fun member => (⟨f member.query, member.operator⟩ : Member R)) =
        s.members.map fun member => ⟨g member.query, member.operator⟩ := by
      refine List.map_congr_left fun member inside => ?_
      rw [same member.query (List.mem_append_right _ (List.mem_map.mpr ⟨member, inside, rfl⟩))]
    simp only [map, Compound.map, ctes, members]
  | insert s =>
    have ctes : s.ctes.map (·.map (Cte.map f)) = s.ctes.map (·.map (Cte.map g)) := ctes_map_congr inCtes
    have source : s.source.map f = s.source.map g := Option.map_congr fun part given =>
      same part (List.mem_append_right _ (Option.mem_toList.mpr given))
    simp only [map, Insert.map, ctes, source]
  | update s =>
    have ctes : s.ctes.map (·.map (Cte.map f)) = s.ctes.map (·.map (Cte.map g)) := ctes_map_congr inCtes
    have joins : s.joins.map (Join.map f) = s.joins.map (Join.map g) := joins_map_congr inJoins
    simp only [map, Update.map, ctes, joins]
  | delete s =>
    have ctes : s.ctes.map (·.map (Cte.map f)) = s.ctes.map (·.map (Cte.map g)) := ctes_map_congr inCtes
    simp only [map, Delete.map, ctes]

end Congr

end Statement

namespace Query

/-- The query without the defaults of compaction that it and all its parts have. -/
def plain : Query → Query :=
  fold fun statement => .of (statement.withDefaults (.bool false) (.bool false))

theorem plain_of (statement : Statement Query) :
    plain (.of statement) = .of ((statement.map plain).withDefaults (.bool false) (.bool false)) :=
  fold_of _ statement

theorem toChild_plain (query : Query) : query.plain.toChild = query.toChild := by
  induction query using Query.induct with
  | step statement parts =>
    rw [plain_of, toChild, fold_of, fold_of, Statement.map_withDefaults, Statement.toChild_withDefaults, Statement.map_map]
    exact congrArg _ (Statement.map_congr parts)

end Query

/-! ### Changes and the parts they bring -/

/-- The condition with its query replaced. -/
def Condition.map (f : Query → Query) : Condition → Condition
  | query q => .query (f q)
  | rest => rest

section Keeping

variable {f : Query → Query} (keeps : ∀ query, (f query).toChild = query.toChild)
include keeps

/-- A query that is built alike as a part makes the same predicate. -/
theorem Condition.toPredicate_map (condition : Condition) (values : List Value) :
    (condition.map f).toPredicate values = condition.toPredicate values := by
  cases condition with
  | query q =>
    have same := congrArg Child.build (keeps q)
    rw [Query.build_toChild, Query.build_toChild] at same
    rw [map, toPredicate, toPredicate, same]
  | _ => rfl

theorem Chain.link_map (chain : Chain) (connective : Value) (condition : Condition) (values : List Value) :
    chain.link connective (condition.map f) values = chain.link connective condition values := by
  have vacant : (condition.map f).isVacant values = condition.isVacant values := by cases condition <;> rfl
  rw [link, link, vacant, Condition.toPredicate_map keeps]

namespace Statement

theorem linkTo_map (connective : Connective) (condition : Condition) (values : List Value) (filter : Restriction) :
    linkTo connective (condition.map f) values filter = linkTo connective condition values filter := by
  cases filter with
  | chain held => rw [linkTo, linkTo, Chain.link_map keeps]
  | predicate _ | unusable _ _ => rfl

theorem restrict_map (connective : Connective) (condition : Condition) (values : List Value) (filter : Restriction) :
    restrict connective (condition.map f) values filter = restrict connective condition values filter := by
  cases condition with
  | query q => exact linkTo_map keeps connective (.query q) values filter
  | _ => rfl

end Statement

end Keeping

namespace Statement

theorem changeFilter_map (f : Query → Query) (change : Restriction → Build Restriction) (statement : Statement Query) :
    (statement.map f).changeFilter change = map f <$> statement.changeFilter change := by
  cases statement with
  | built _ | insert _ | unbuildable => rfl
  | select s | compound s | update s | delete s =>
    simp only [map, Select.map, Compound.map, Update.map, Delete.map, changeFilter, map_bind, map_pure]

theorem changeHaving_map (f : Query → Query) (change : Restriction → Build Restriction) (statement : Statement Query) :
    (statement.map f).changeHaving change = map f <$> statement.changeHaving change := by
  cases statement with
  | built _ | insert _ | update _ | delete _ | unbuildable => rfl
  | select s | compound s => simp only [map, Select.map, Compound.map, changeHaving, map_bind, map_pure]

theorem changeFilter_withDefaults (compact deep : Value) (change : Restriction → Build Restriction) (statement : Statement Query) :
    (statement.withDefaults compact deep).changeFilter change = withDefaults compact deep <$> statement.changeFilter change := by
  cases statement with
  | built _ | insert _ | unbuildable => rfl
  | select s | compound s | update s | delete s => simp only [withDefaults, changeFilter, map_bind, map_pure]

theorem changeHaving_withDefaults (compact deep : Value) (change : Restriction → Build Restriction) (statement : Statement Query) :
    (statement.withDefaults compact deep).changeHaving change = withDefaults compact deep <$> statement.changeHaving change := by
  cases statement with
  | built _ | insert _ | update _ | delete _ | unbuildable => rfl
  | select s | compound s => simp only [withDefaults, changeHaving, map_bind, map_pure]

namespace Edit

/-- The change with the queries that it brings replaced. -/
def map (f : Query → Query) : Edit → Edit
  | .ctes list => .ctes (list.map (·.map (Cte.map f)))
  | .where connective condition values => .where connective (condition.map f) values
  | .having condition values => .having (condition.map f) values
  | .join joined => .join (joined.map f)
  | .member added => .member ⟨f added.query, added.operator⟩
  | .source query => .source (f query)
  | rest => rest

/-- Parts that are built alike can be put in place of others before a change or after it. -/
theorem apply_map {f : Query → Query} (keeps : ∀ query, (f query).toChild = query.toChild) (edit : Edit)
    (statement : Statement Query) : (edit.map f).apply (statement.map f) = Statement.map f <$> edit.apply statement := by
  cases edit with
  | «where» connective condition values =>
    rw [map, apply, apply, changeFilter_map]
    congr 2
    exact funext fun filter => restrict_map keeps connective condition values filter
  | having condition values =>
    rw [map, apply, apply, changeHaving_map]
    congr 2
    exact funext fun filter => linkTo_map keeps .and condition values filter
  | join joined =>
    cases statement with
    | select s | update s =>
      simp only [map, apply, addJoin, Statement.map, Select.map, Update.map, List.map_append, List.map_singleton, map_pure]
    | _ => rfl
  | member added =>
    cases statement with
    | compound s =>
      simp only [map, apply, changeCompound, Statement.map, Compound.map, List.map_append, List.map_singleton, map_pure]
    | _ => rfl
  | _ => cases statement <;> rfl

/-- But for the defaults it leaves, a change does the same whatever the defaults before it were. -/
theorem apply_withDefaults (edit : Edit) (statement : Statement Query) (compact deep : Value) :
    withDefaults compact deep <$> edit.apply (statement.withDefaults compact deep) =
      withDefaults compact deep <$> edit.apply statement := by
  cases edit with
  | «where» connective condition values =>
    rw [apply, apply, changeFilter_withDefaults, Functor.map_map]
    simp only [withDefaults_withDefaults]
  | having condition values =>
    rw [apply, apply, changeHaving_withDefaults, Functor.map_map]
    simp only [withDefaults_withDefaults]
  | _ => cases statement <;> rfl

end Edit

end Statement

/-! ### Two runs of the same calls -/

namespace Build

variable {α β γ : Type}

/-- From one trace both succeed, with a result each. -/
def Both (left : Build α) (right : Build β) (result : α) (result' : β) : Prop :=
  ∃ trace after after', runFrom trace left = (.ok result, after) ∧ runFrom trace right = (.ok result', after')

theorem runFrom_map (f : α → γ) (action : Build α) (trace : Trace) :
    runFrom trace (f <$> action) = ((runFrom trace action).1.map f, (runFrom trace action).2) := by
  rw [map_eq_pure_bind, runFrom_bind]
  cases runFrom trace action with
  | mk outcome after => cases outcome <;> rfl

theorem Both.map_eq {left : Build α} {right : Build β} {result : α} {result' : β} (both : Both left right result result')
    {f : α → γ} {g : β → γ} (same : f <$> left = g <$> right) : f result = g result' := by
  obtain ⟨trace, after, after', first, second⟩ := both
  have equal := congrArg (fun action => (runFrom trace action).1) same
  simp only [runFrom_map, first, second] at equal
  exact Except.ok.inj equal

theorem Both.eq {action : Build α} {result result' : α} (both : Both action action result result') : result = result' :=
  both.map_eq (f := id) (g := id) rfl

end Build

/-- The compound of a query and another one, with the flavor and the defaults of the first. -/
def Query.united (query : Query) (operator : SetOperator) (other : Query) (name : Value) : Query :=
  .of (.compound
    { settings := { (query.statement.settings?.getD {}) with schemas := [] }, name,
      members := [⟨query.detached, .unionAll⟩, ⟨other, operator⟩] })

mutual

/-- What the same calls make in two runs, if in one of them defaults of compaction are set for builders where in the other they are not. The flag says whether they may have been set for the very builder that is made. -/
inductive Query.Redefaulted : Bool → Query → Query → Prop
  | finished (own : Bool) (built : BuiltQuery) : Query.Redefaulted own (.of (.built built)) (.of (.built built))
  | new (own : Bool) {statement : Statement Query} (new : statement.New) : Query.Redefaulted own (.of statement) (.of statement)
  | detached {own : Bool} {query query' : Query} (before : Query.Redefaulted own query query') :
      Query.Redefaulted own query.detached query'.detached
  | united {own : Bool} {query query' other other' : Query} (first : Query.Redefaulted own query query')
      (second : Query.Redefaulted true other other') (operator : SetOperator) (name : Value) :
      Query.Redefaulted own (query.united operator other name) (query'.united operator other' name)
  | setFirst {own : Bool} {before after : Statement Query} {query' : Query} {compact deep : Value}
      (start : Query.Redefaulted own (.of before) query') (done : ((Statement.Edit.compaction compact deep).apply before).Yields after) :
      Query.Redefaulted true (.of after) query'
  | setSecond {own : Bool} {query : Query} {before after : Statement Query} {compact deep : Value}
      (start : Query.Redefaulted own query (.of before)) (done : ((Statement.Edit.compaction compact deep).apply before).Yields after) :
      Query.Redefaulted true query (.of after)
  | change {own : Bool} {before before' after after' : Statement Query} {edit edit' : Statement.Edit}
      (start : Query.Redefaulted own (.of before) (.of before')) (call : Statement.Edit.Redefaulted edit edit')
      (done : Build.Both (edit.apply before) (edit'.apply before') after after') :
      Query.Redefaulted own (.of after) (.of after')

/-- Two calls that change a statement and are the same but for defaults of the builders that they bring. -/
inductive Statement.Edit.Redefaulted : Statement.Edit → Statement.Edit → Prop
  | same (edit : Statement.Edit) : Statement.Edit.Redefaulted edit edit
  | ctes {ctes ctes' : List (Cte Query)} (parts : Cte.Redefaulted ctes ctes') :
      Statement.Edit.Redefaulted (.ctes (some ctes)) (.ctes (some ctes'))
  | where (connective : Connective) {condition condition' : Condition} (values : List Value)
      (conditions : Condition.Redefaulted condition condition') :
      Statement.Edit.Redefaulted (.where connective condition values) (.where connective condition' values)
  | having {condition condition' : Condition} (values : List Value) (conditions : Condition.Redefaulted condition condition') :
      Statement.Edit.Redefaulted (.having condition values) (.having condition' values)
  | filter (holder : Option Label) {chain chain' : Chain} (chains : Chain.Redefaulted chain chain') :
      Statement.Edit.Redefaulted (.filter (.chain ⟨chain, holder⟩)) (.filter (.chain ⟨chain', holder⟩))
  | groupFilter (holder : Option Label) {chain chain' : Chain} (chains : Chain.Redefaulted chain chain') :
      Statement.Edit.Redefaulted (.groupFilter (.chain ⟨chain, holder⟩)) (.groupFilter (.chain ⟨chain', holder⟩))
  | join (kind : JoinKind) {source source' : JoinSource Query} (sources : JoinSource.Redefaulted source source') :
      Statement.Edit.Redefaulted (.join ⟨kind, source, none⟩) (.join ⟨kind, source', none⟩)
  | joinOn (kind : JoinKind) {source source' : JoinSource Query} {predicate predicate' : Predicate}
      (sources : JoinSource.Redefaulted source source') (conditions : Predicate.Redefaulted predicate predicate') :
      Statement.Edit.Redefaulted (.join ⟨kind, source, some predicate⟩) (.join ⟨kind, source', some predicate'⟩)
  | member (operator : SetOperator) {query query' : Query} (queries : Query.Redefaulted true query query') :
      Statement.Edit.Redefaulted (.member ⟨query, operator⟩) (.member ⟨query', operator⟩)
  | source {query query' : Query} (queries : Query.Redefaulted true query query') :
      Statement.Edit.Redefaulted (.source query) (.source query')

/-- Sets of common table expressions over such queries. -/
inductive Cte.Redefaulted : List (Cte Query) → List (Cte Query) → Prop
  | nil : Cte.Redefaulted [] []
  | pending (name recursive : Value) {ctes ctes' : List (Cte Query)} (others : Cte.Redefaulted ctes ctes') :
      Cte.Redefaulted (⟨name, none, recursive⟩ :: ctes) (⟨name, none, recursive⟩ :: ctes')
  | cons (name recursive : Value) {query query' : Query} {ctes ctes' : List (Cte Query)} (queries : Query.Redefaulted true query query')
      (others : Cte.Redefaulted ctes ctes') :
      Cte.Redefaulted (⟨name, some query, recursive⟩ :: ctes) (⟨name, some query', recursive⟩ :: ctes')

inductive JoinSource.Redefaulted : JoinSource Query → JoinSource Query → Prop
  | table (reference name : Value) : JoinSource.Redefaulted (.table reference name) (.table reference name)
  | subquery (name : Value) {query query' : Query} (queries : Query.Redefaulted true query query') :
      JoinSource.Redefaulted (.subquery query name) (.subquery query' name)

inductive Condition.Redefaulted : Condition → Condition → Prop
  | same (condition : Condition) : Condition.Redefaulted condition condition
  | predicate {predicate predicate' : Predicate} (predicates : Predicate.Redefaulted predicate predicate') :
      Condition.Redefaulted (.predicate predicate) (.predicate predicate')
  | chain {chain chain' : Chain} (chains : Chain.Redefaulted chain chain') : Condition.Redefaulted (.chain chain) (.chain chain')
  | query {query query' : Query} (queries : Query.Redefaulted true query query') : Condition.Redefaulted (.query query) (.query query')

/-- Predicates that such conditions have been made into. -/
inductive Predicate.Redefaulted : Predicate → Predicate → Prop
  | condition {condition condition' : Condition} {values : List Value} {predicate predicate' : Predicate}
      (conditions : Condition.Redefaulted condition condition')
      (made : Build.Both (condition.toPredicate values) (condition'.toPredicate values) predicate predicate') :
      Predicate.Redefaulted predicate predicate'
  | combine {connective : Connective} {left left' right right' predicate predicate' : Predicate}
      (first : Predicate.Redefaulted left left') (second : Predicate.Redefaulted right right')
      (made : Build.Both (Predicate.combine connective left right) (Predicate.combine connective left' right') predicate predicate') :
      Predicate.Redefaulted predicate predicate'

inductive Chain.Redefaulted : Chain → Chain → Prop
  | new : Chain.Redefaulted {} {}
  | change {before before' after after' : Chain} {edit edit' : Chain.Edit} (start : Chain.Redefaulted before before')
      (call : Chain.Edit.Redefaulted edit edit') (done : Build.Both (edit.apply before) (edit'.apply before') after after') :
      Chain.Redefaulted after after'

inductive Chain.Edit.Redefaulted : Chain.Edit → Chain.Edit → Prop
  | same (edit : Chain.Edit) : Chain.Edit.Redefaulted edit edit
  | link (connective : Value) {condition condition' : Condition} (values : List Value)
      (conditions : Condition.Redefaulted condition condition') :
      Chain.Edit.Redefaulted (.link connective condition values) (.link connective condition' values)
  | existence (negated : Bool) (connective : Value) {condition condition' : Condition} (values : List Value)
      (conditions : Condition.Redefaulted condition condition') :
      Chain.Edit.Redefaulted (.existence negated connective condition values) (.existence negated connective condition' values)

end

/-! ### What the two runs have in common -/

namespace Query

/-- The same but for defaults: those of the parts, or those of the query too. -/
def Agree : Bool → Query → Query → Prop
  | false, query, query' => query.statement.map plain = query'.statement.map plain
  | true, query, query' => query.plain = query'.plain

theorem Agree.plain_eq {own : Bool} {query query' : Query} (agree : Agree own query query') : query.plain = query'.plain := by
  cases own with
  | true => exact agree
  | false =>
    obtain ⟨statement⟩ := query
    obtain ⟨statement'⟩ := query'
    rw [plain_of, plain_of]
    exact congrArg (fun s => Query.of (Statement.withDefaults _ _ s)) agree

theorem plain_of_compaction {before after : Statement Query} {compact deep : Value}
    (done : ((Statement.Edit.compaction compact deep).apply before).Yields after) : plain (.of after) = plain (.of before) := by
  cases before with
  | built _ | unbuildable => exact absurd done not_yields_throw
  | select s | compound s | insert s | update s | delete s =>
    obtain rfl := yields_pure.mp done
    rw [plain_of, plain_of]
    rfl

theorem Agree.detached {own : Bool} {query query' : Query} (agree : Agree own query query') :
    Agree own query.detached query'.detached := by
  have inside (statement : Statement Query) : statement.detached.map Query.plain = (statement.map Query.plain).detached := by
    cases statement <;> rfl
  have beneath (statement : Statement Query) :
      statement.detached.withDefaults (.bool false) (.bool false) = (statement.withDefaults (.bool false) (.bool false)).detached := by
    cases statement <;> rfl
  obtain ⟨statement⟩ := query
  obtain ⟨statement'⟩ := query'
  cases own with
  | false =>
    change statement.detached.map Query.plain = statement'.detached.map Query.plain
    rw [inside, inside]
    exact congrArg Statement.detached agree
  | true =>
    rw [Agree, plain_of, plain_of] at agree
    change plain (Query.of statement.detached) = plain (Query.of statement'.detached)
    rw [plain_of, plain_of, inside, inside, beneath, beneath, Query.of.inj agree]

private theorem flavor_of_plain {query query' : Query} (same : query.plain = query'.plain) :
    (query.statement.settings?.getD {}).flavor = (query'.statement.settings?.getD {}).flavor := by
  have found (query : Query) : (query.plain.statement.settings?.getD {}).flavor = (query.statement.settings?.getD {}).flavor := by
    obtain ⟨statement⟩ := query
    rw [plain_of]
    cases statement <;> rfl
  rw [← found query, ← found query', same]

theorem Agree.united {own : Bool} {query query' other other' : Query} (first : Agree own query query')
    (second : Agree true other other') (operator : SetOperator) (name : Value) :
    Agree own (query.united operator other name) (query'.united operator other' name) := by
  have detached : query.detached.plain = query'.detached.plain := first.detached.plain_eq
  have others : other.plain = other'.plain := second
  have members : [(⟨query.detached, .unionAll⟩ : Member Query), ⟨other, operator⟩].map
        (fun member => (⟨plain member.query, member.operator⟩ : Member Query)) =
      [(⟨query'.detached, .unionAll⟩ : Member Query), ⟨other', operator⟩].map fun member => ⟨plain member.query, member.operator⟩ := by
    simp only [List.map_cons, List.map_nil, detached, others]
  cases own with
  | false =>
    have settings : query.statement.settings? = query'.statement.settings? := by
      have same := congrArg Statement.settings? first
      rwa [Statement.settings?_map, Statement.settings?_map] at same
    change Statement.map plain (.compound _) = Statement.map plain (.compound _)
    simp only [Statement.map, Compound.map, members, settings]
  | true =>
    have flavor := flavor_of_plain first.plain_eq
    change plain (Query.of (.compound _)) = plain (Query.of (.compound _))
    rw [plain_of, plain_of]
    simp only [Statement.map, Compound.map, Statement.withDefaults, members, flavor]

section Change

variable {own : Bool} {before before' : Statement Query} {edit edit' : Statement.Edit}

/-- Changes that bring the same but for defaults have the same outcomes but for defaults. -/
theorem Agree.apply_eq (start : Agree own (.of before) (.of before')) (call : edit.map Query.plain = edit'.map Query.plain) :
    (fun after => Query.plain (.of after)) <$> edit.apply before = (fun after => Query.plain (.of after)) <$> edit'.apply before' := by
  have through (edit : Statement.Edit) (s : Statement Query) :
      (fun after => Query.plain (.of after)) <$> edit.apply s =
        (fun s => Query.of (Statement.withDefaults (.bool false) (.bool false) s)) <$>
          (edit.map Query.plain).apply ((s.map Query.plain).withDefaults (.bool false) (.bool false)) := by
    calc (fun after => Query.plain (.of after)) <$> edit.apply s
        = Query.of <$> Statement.withDefaults (.bool false) (.bool false) <$> Statement.map Query.plain <$> edit.apply s := by
          simp only [Functor.map_map, plain_of]
      _ = _ := by
          rw [← Statement.Edit.apply_map toChild_plain, ← Statement.Edit.apply_withDefaults, Functor.map_map]
  have same := start.plain_eq
  rw [plain_of, plain_of] at same
  rw [through, through, call, Query.of.inj same]

/-- Changes that bring the same but for defaults leave the two runs in agreement. -/
theorem Agree.change (start : Agree own (.of before) (.of before')) (call : edit.map Query.plain = edit'.map Query.plain)
    {after after' : Statement Query} (done : Both (edit.apply before) (edit'.apply before') after after') :
    Agree own (.of after) (.of after') := by
  cases own with
  | true => exact done.map_eq (start.apply_eq call)
  | false =>
    refine done.map_eq ?_
    rw [← Statement.Edit.apply_map toChild_plain, ← Statement.Edit.apply_map toChild_plain, call]
    exact congrArg (fun s => Statement.Edit.apply s (edit'.map Query.plain)) start

end Change

end Query

private theorem toPredicate_eq {condition condition' : Condition} (same : condition.map Query.plain = condition'.map Query.plain)
    (values : List Value) : condition.toPredicate values = condition'.toPredicate values := by
  rw [← Condition.toPredicate_map Query.toChild_plain, same, Condition.toPredicate_map Query.toChild_plain]

private theorem link_eq {condition condition' : Condition} (same : condition.map Query.plain = condition'.map Query.plain)
    (connective : Value) (values : List Value) (chain : Chain) :
    (Chain.Edit.link connective condition values).apply chain = (Chain.Edit.link connective condition' values).apply chain := by
  rw [Chain.Edit.apply, Chain.Edit.apply, ← Chain.link_map Query.toChild_plain, same, Chain.link_map Query.toChild_plain]

private theorem existence_eq {condition condition' : Condition} (same : condition.map Query.plain = condition'.map Query.plain)
    (negated : Bool) (connective : Value) (values : List Value) (chain : Chain) :
    (Chain.Edit.existence negated connective condition values).apply chain =
      (Chain.Edit.existence negated connective condition' values).apply chain := by
  rw [Chain.Edit.apply, Chain.Edit.apply, Chain.existence, Chain.existence, toPredicate_eq same]

mutual

theorem Query.Redefaulted.agree {own : Bool} {query query' : Query} : Query.Redefaulted own query query' → Query.Agree own query query'
  | .finished own _ => by cases own <;> rfl
  | .new own _ => by cases own <;> rfl
  | .detached before => before.agree.detached
  | .united first second operator name => first.agree.united second.agree operator name
  | .setFirst start done => (Query.plain_of_compaction done).trans start.agree.plain_eq
  | .setSecond start done => start.agree.plain_eq.trans (Query.plain_of_compaction done).symm
  | .change start call done => start.agree.change call.map_eq done

theorem Statement.Edit.Redefaulted.map_eq {edit edit' : Statement.Edit} :
    Statement.Edit.Redefaulted edit edit' → edit.map Query.plain = edit'.map Query.plain
  | .same _ => rfl
  | .ctes parts => congrArg (Statement.Edit.ctes ∘ some) parts.map_eq
  | .where connective values conditions => congrArg (Statement.Edit.where connective · values) conditions.map_eq
  | .having values conditions => congrArg (Statement.Edit.having · values) conditions.map_eq
  | .filter holder chains => congrArg (fun chain => Statement.Edit.filter (.chain ⟨chain, holder⟩)) chains.eq
  | .groupFilter holder chains => congrArg (fun chain => Statement.Edit.groupFilter (.chain ⟨chain, holder⟩)) chains.eq
  | .join kind sources => congrArg Statement.Edit.join (sources.map_eq kind none)
  | .joinOn kind sources conditions => by
    rw [conditions.eq]
    exact congrArg Statement.Edit.join (sources.map_eq kind _)
  | .member operator queries => congrArg (fun query => Statement.Edit.member ⟨query, operator⟩) queries.agree.plain_eq
  | .source queries => congrArg Statement.Edit.source queries.agree.plain_eq

theorem Cte.Redefaulted.map_eq {ctes ctes' : List (Cte Query)} :
    Cte.Redefaulted ctes ctes' → ctes.map (Cte.map Query.plain) = ctes'.map (Cte.map Query.plain)
  | .nil => rfl
  | .pending name recursive others => congrArg (fun rest => (⟨name, none, recursive⟩ : Cte Query) :: rest) others.map_eq
  | .cons name recursive queries others =>
    congrArg₂ (fun query rest => (⟨name, some query, recursive⟩ : Cte Query) :: rest) queries.agree.plain_eq others.map_eq

theorem JoinSource.Redefaulted.map_eq {source source' : JoinSource Query} (kind : JoinKind) (condition : Option Predicate) :
    JoinSource.Redefaulted source source' →
      Join.map Query.plain ⟨kind, source, condition⟩ = Join.map Query.plain ⟨kind, source', condition⟩
  | .table _ _ => rfl
  | .subquery name queries =>
    congrArg (fun query => (⟨kind, .subquery query name, condition⟩ : Join Query)) queries.agree.plain_eq

theorem Condition.Redefaulted.map_eq {condition condition' : Condition} :
    Condition.Redefaulted condition condition' → condition.map Query.plain = condition'.map Query.plain
  | .same _ => rfl
  | .predicate predicates => congrArg Condition.predicate predicates.eq
  | .chain chains => congrArg Condition.chain chains.eq
  | .query queries => congrArg Condition.query queries.agree.plain_eq

theorem Predicate.Redefaulted.eq {predicate predicate' : Predicate} : Predicate.Redefaulted predicate predicate' → predicate = predicate'
  | .condition conditions made => made.map_eq (f := id) (g := id) (congrArg _ (toPredicate_eq conditions.map_eq _))
  | .combine first second made => by
    rw [first.eq, second.eq] at made
    exact made.eq

theorem Chain.Redefaulted.eq {chain chain' : Chain} : Chain.Redefaulted chain chain' → chain = chain'
  | .new => rfl
  | .change start call done => by
    rw [start.eq, call.apply_eq] at done
    exact done.eq

theorem Chain.Edit.Redefaulted.apply_eq {edit edit' : Chain.Edit} (chain : Chain) :
    Chain.Edit.Redefaulted edit edit' → edit.apply chain = edit'.apply chain
  | .same _ => rfl
  | .link connective values conditions => link_eq conditions.map_eq connective values chain
  | .existence negated connective values conditions => existence_eq conditions.map_eq negated connective values chain

end

/-- Whatever defaults of compaction are set for the builders inside, however deep, a builder is built to the same result with the same records, or fails alike. The calls that take these builders in succeed or fail alike too. -/
theorem Query.build_of_redefaulted :
    (∀ {query query' : Query}, Redefaulted false query query' → ∀ compact deep, query.build compact deep = query'.build compact deep) ∧
    (∀ {own : Bool} {before before' : Statement Query} {edit edit' : Statement.Edit}, Redefaulted own (.of before) (.of before') →
      Statement.Edit.Redefaulted edit edit' → ∀ trace,
        (runFrom trace (edit.apply before)).1.map (fun _ => ()) = (runFrom trace (edit'.apply before')).1.map (fun _ => ()) ∧
          (runFrom trace (edit.apply before)).2 = (runFrom trace (edit'.apply before')).2) := by
  constructor
  · intro query query' calls compact deep
    have built (query : Query) : (query.statement.map plain).map toChild = query.statement.map toChild := by
      rw [Statement.map_map]
      exact Statement.map_congr fun part _ => toChild_plain part
    have same : query.statement.map plain = query'.statement.map plain := calls.agree
    rw [build, build, ← built query, ← built query', same]
  · intro own before before' edit edit' start call trace
    have same := congrArg (runFrom trace) (start.agree.apply_eq call.map_eq)
    rw [runFrom_map, runFrom_map, Prod.mk.injEq] at same
    have forget (outcome : Except Error (Statement Query)) :
        outcome.map (fun _ => ()) = (outcome.map fun after => plain (.of after)).map fun _ => () := by cases outcome <;> rfl
    rw [forget, forget (runFrom trace (edit'.apply before')).1, same.1]
    exact ⟨rfl, same.2⟩

/-- A statement with one value twice, for which compaction is or is not the default. -/
private def repeated (compact : Value) : Statement Query :=
  .select
    { settings := { compact }, table := .text "t",
      filter := .chain ⟨⟨[(.and, ⟨.plain "a = ? OR b = ?", [.int 7, .int 7]⟩)]⟩, none⟩ }

private theorem redefaulted_repeated :
    Query.Redefaulted true (.of (repeated (.bool true))) (.of (repeated (.bool false))) := by
  have condition : Statement.Edit.Redefaulted (.where .and (.text (.plain "a = ? OR b = ?")) [.int 7, .int 7])
      (.where .and (.text (.plain "a = ? OR b = ?")) [.int 7, .int 7]) := .same _
  have new : Query.Redefaulted true (.of (.select { table := .text "t" })) (.of (.select { table := .text "t" })) :=
    .new true (.select {} (.text "t") .null)
  have both : Query.Redefaulted true (.of (repeated (.bool false))) (.of (repeated (.bool false))) :=
    .change new condition ⟨{}, _, _, rfl, rfl⟩
  have done : ((Statement.Edit.compaction (.bool true) (.bool false)).apply (repeated (.bool false))).Yields (repeated (.bool true)) :=
    ⟨{}, _, rfl⟩
  exact .setFirst both done

/-- A compound of it, in whose parts compaction is the default in one run. -/
private def compounded (compact : Value) : Query :=
  .of (.compound { name := .text "u", members := [⟨.of (repeated compact), .unionAll⟩] })

theorem Query.build_of_redefaulted_compound :
    Redefaulted false (compounded (.bool true)) (compounded (.bool false)) ∧
      (compounded (.bool true)).build none none = (compounded (.bool false)).build none none := by
  have calls : Redefaulted false (compounded (.bool true)) (compounded (.bool false)) :=
    .change (.new false (.compound {} (.text "u"))) (.member .unionAll redefaulted_repeated) ⟨{}, _, _, rfl, rfl⟩
  exact ⟨calls, build_of_redefaulted.1 calls none none⟩

end SqlCompose
