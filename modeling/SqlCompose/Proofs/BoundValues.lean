import Mathlib
import SqlCompose.Proofs.TwinChanges

/-!
# Bound values never reach the text

Run the same calls twice, and let only the values differ that are bound. Then what is built has one text in both runs, or fails in both with one failure. So no helper writes a value into the text that it binds.

`Query.SameCalls` and its companions say what it is for calls to be the same but for the values: to start from the same new statement, or from a finished query with the same text and as many values, and to make in turn changes that differ in values alone, each of which succeeds in both runs. Lists of a membership are equally long, and texts that are searched word by word have equally many words. What is handed on between builders, a condition or a query, comes itself from such calls.

Without compaction, that is; which values are equal decides how a compacted text is numbered.
-/

namespace SqlCompose

open Build

/-- A statement as it is created, with its settings and its names. -/
inductive Statement.New : Statement Query → Prop
  | select (settings : Settings) (table name : Value) : New (.select { settings, table, name })
  | compound (settings : Settings) (name : Value) : New (.compound { settings, name })
  | insert (settings : Settings) (table : Value) : New (.insert { settings, table })
  | update (settings : Settings) (table name : Value) : New (.update { settings, table, name })
  | delete (settings : Settings) (table name : Value) : New (.delete { settings, table, name })

/-- The links for the words of a text, made one after another. -/
def Chain.linkWords (chain : Chain) (edits : List (Except Error Chain.Edit)) : Build Chain :=
  edits.foldlM (fun (chain : Chain) (edit : Except Error Chain.Edit) => do (← edit).apply chain) chain

mutual

/-- Two queries that the same calls have made, but for the values that are bound. -/
inductive Query.SameCalls : Query → Query → Prop
  | finished (text : Value) {values values' : List Value} (length : values.length = values'.length) :
      Query.SameCalls (.of (.built ⟨text, values⟩)) (.of (.built ⟨text, values'⟩))
  | new {statement : Statement Query} (new : statement.New) : Query.SameCalls (.of statement) (.of statement)
  | detached {query query' : Query} (before : Query.SameCalls query query') : Query.SameCalls query.detached query'.detached
  | change {before before' after after' : Statement Query} {edit edit' : Statement.Edit}
      (start : Query.SameCalls (.of before) (.of before')) (call : Statement.Edit.SameCalls edit edit')
      (done : (edit.apply before).Yields after) (done' : (edit'.apply before').Yields after') :
      Query.SameCalls (.of after) (.of after')

/-- Two changes of a statement that are the same but for the values that are bound. -/
inductive Statement.Edit.SameCalls : Statement.Edit → Statement.Edit → Prop
  | plain {edit : Statement.Edit} (plain : edit.isPlain = true) : Statement.Edit.SameCalls edit edit
  | ctes {ctes ctes' : List (Cte Query)} (parts : Cte.SameCalls ctes ctes') :
      Statement.Edit.SameCalls (.ctes (some ctes)) (.ctes (some ctes'))
  | where (connective : Connective) {condition condition' : Condition} {values values' : List Value}
      (conditions : Condition.SameCalls condition condition') (length : values.length = values'.length) :
      Statement.Edit.SameCalls (.where connective condition values) (.where connective condition' values')
  | having {condition condition' : Condition} {values values' : List Value}
      (conditions : Condition.SameCalls condition condition') (length : values.length = values'.length) :
      Statement.Edit.SameCalls (.having condition values) (.having condition' values')
  | filter {restriction restriction' : Restriction} (restrictions : Restriction.SameCalls restriction restriction') :
      Statement.Edit.SameCalls (.filter restriction) (.filter restriction')
  | groupFilter {restriction restriction' : Restriction} (restrictions : Restriction.SameCalls restriction restriction') :
      Statement.Edit.SameCalls (.groupFilter restriction) (.groupFilter restriction')
  | join (kind : JoinKind) {source source' : JoinSource Query} (sources : JoinSource.SameCalls source source') :
      Statement.Edit.SameCalls (.join ⟨kind, source, none⟩) (.join ⟨kind, source', none⟩)
  | joinOn (kind : JoinKind) {source source' : JoinSource Query} {predicate predicate' : Predicate}
      (sources : JoinSource.SameCalls source source') (conditions : Predicate.SameCalls predicate predicate') :
      Statement.Edit.SameCalls (.join ⟨kind, source, some predicate⟩) (.join ⟨kind, source', some predicate'⟩)
  | member (operator : SetOperator) {query query' : Query} (queries : Query.SameCalls query query') :
      Statement.Edit.SameCalls (.member ⟨query, operator⟩) (.member ⟨query', operator⟩)
  | source {query query' : Query} (queries : Query.SameCalls query query') :
      Statement.Edit.SameCalls (.source query) (.source query')
  | row (column value value' : Value) : Statement.Edit.SameCalls (.row column value) (.row column value')
  | rows {given given' : Value} {rows rows' : List (Value × Value)} (columns : given.rowColumns = given'.rowColumns)
      (taken : given.takeOverPairs.Yields rows) (taken' : given'.takeOverPairs.Yields rows') :
      Statement.Edit.SameCalls (.rows rows) (.rows rows')
  | assignment (column value value' : Value) :
      Statement.Edit.SameCalls (.assignment column (.value value)) (.assignment column (.value value'))
  | assignments {given given' : Value} {rows rows' : List (Value × Value)} (columns : given.rowColumns = given'.rowColumns)
      (taken : given.takeOverPairs.Yields rows) (taken' : given'.takeOverPairs.Yields rows') :
      Statement.Edit.SameCalls (.assignments (rows.map fun (column, value) => (column, .value value)))
        (.assignments (rows'.map fun (column, value) => (column, .value value)))

/-- Sets of common table expressions over such queries. -/
inductive Cte.SameCalls : List (Cte Query) → List (Cte Query) → Prop
  | nil : Cte.SameCalls [] []
  | pending (name recursive : Value) {ctes ctes' : List (Cte Query)} (others : Cte.SameCalls ctes ctes') :
      Cte.SameCalls (⟨name, none, recursive⟩ :: ctes) (⟨name, none, recursive⟩ :: ctes')
  | cons (name recursive : Value) {query query' : Query} {ctes ctes' : List (Cte Query)} (queries : Query.SameCalls query query')
      (others : Cte.SameCalls ctes ctes') :
      Cte.SameCalls (⟨name, some query, recursive⟩ :: ctes) (⟨name, some query', recursive⟩ :: ctes')

inductive JoinSource.SameCalls : JoinSource Query → JoinSource Query → Prop
  | table (reference name : Value) : JoinSource.SameCalls (.table reference name) (.table reference name)
  | subquery (name : Value) {query query' : Query} (queries : Query.SameCalls query query') :
      JoinSource.SameCalls (.subquery query name) (.subquery query' name)

/-- Conditions that a populating call puts in place. -/
inductive Restriction.SameCalls : Restriction → Restriction → Prop
  | chain {held held' : Held Chain} (chains : Chain.SameCalls held.item held'.item) :
      Restriction.SameCalls (.chain held) (.chain held')
  | predicate {predicate predicate' : Predicate} (predicates : Predicate.SameCalls predicate predicate') :
      Restriction.SameCalls (.predicate predicate) (.predicate predicate')
  | unusable (value : Value) (copied : Bool) : Restriction.SameCalls (.unusable value copied) (.unusable value copied)

/-- Conditions of one form: one text, or what the same calls have made. -/
inductive Condition.SameCalls : Condition → Condition → Prop
  | text (text : Wording) : Condition.SameCalls (.text text) (.text text)
  | predicate {predicate predicate' : Predicate} (predicates : Predicate.SameCalls predicate predicate') :
      Condition.SameCalls (.predicate predicate) (.predicate predicate')
  | chain {chain chain' : Chain} (chains : Chain.SameCalls chain chain') : Condition.SameCalls (.chain chain) (.chain chain')
  | query {query query' : Query} (queries : Query.SameCalls query query') : Condition.SameCalls (.query query) (.query query')

/-- Predicates over values of their own, or made of such. -/
inductive Predicate.SameCalls : Predicate → Predicate → Prop
  | make {text : Wording} {values values' : List Value} {predicate predicate' : Predicate}
      (made : (Predicate.make text values).Yields predicate) (made' : (Predicate.make text values').Yields predicate') :
      Predicate.SameCalls predicate predicate'
  | condition {condition condition' : Condition} {values values' : List Value} {predicate predicate' : Predicate}
      (conditions : Condition.SameCalls condition condition') (made : (condition.toPredicate values).Yields predicate)
      (made' : (condition'.toPredicate values').Yields predicate') : Predicate.SameCalls predicate predicate'
  | combine {connective : Connective} {left left' right right' predicate predicate' : Predicate}
      (first : Predicate.SameCalls left left') (second : Predicate.SameCalls right right')
      (made : (Predicate.combine connective left right).Yields predicate)
      (made' : (Predicate.combine connective left' right').Yields predicate') : Predicate.SameCalls predicate predicate'
  | chain {chain chain' : Chain} {newLine : Bool} {predicate predicate' : Predicate} (chains : Chain.SameCalls chain chain')
      (made : (chain.toPredicate newLine).Yields predicate) (made' : (chain'.toPredicate newLine).Yields predicate') :
      Predicate.SameCalls predicate predicate'

inductive Chain.SameCalls : Chain → Chain → Prop
  | new : Chain.SameCalls {} {}
  | change {before before' after after' : Chain} {edit edit' : Chain.Edit} (start : Chain.SameCalls before before')
      (call : Chain.Edit.SameCalls edit edit') (done : (edit.apply before).Yields after)
      (done' : (edit'.apply before').Yields after') : Chain.SameCalls after after'
  | words {anyCase : Bool} {field query query' connective : Value} {edits edits' : List (Except Error Chain.Edit)}
      {before before' after after' : Chain} (start : Chain.SameCalls before before')
      (read : Chain.Edit.containingWords anyCase field query connective = .ok edits)
      (read' : Chain.Edit.containingWords anyCase field query' connective = .ok edits') (count : edits.length = edits'.length)
      (done : (before.linkWords edits).Yields after) (done' : (before'.linkWords edits').Yields after') :
      Chain.SameCalls after after'

inductive Chain.Edit.SameCalls : Chain.Edit → Chain.Edit → Prop
  | link (connective : Value) {condition condition' : Condition} {values values' : List Value}
      (conditions : Condition.SameCalls condition condition') (length : values.length = values'.length) :
      Chain.Edit.SameCalls (.link connective condition values) (.link connective condition' values')
  | existence (negated : Bool) (connective : Value) {condition condition' : Condition} {values values' : List Value}
      (conditions : Condition.SameCalls condition condition') (length : values.length = values'.length) :
      Chain.Edit.SameCalls (.existence negated connective condition values) (.existence negated connective condition' values')
  | clear : Chain.Edit.SameCalls .clear .clear
  | form {connective : Value} {form form' : Chain.Form} {edit edit' : Chain.Edit} (forms : form.Twin form')
      (written : (form.edit connective).Yields edit) (written' : (form'.edit connective).Yields edit') :
      Chain.Edit.SameCalls edit edit'

end

/-! ### What such calls make -/

theorem Statement.New.twin {statement : Statement Query} (new : statement.New) :
    Statement.Twin Query.PartTwin statement statement := by
  have none : Restriction.none.Twin .none := .chain .nil
  cases new with
  | select settings table name => exact .select ⟨rfl, .none, rfl, rfl, rfl, rfl, .nil, none, rfl, rfl, none, rfl, rfl⟩
  | compound settings name => exact .compound ⟨rfl, .none, rfl, .nil, rfl, none, rfl, none, rfl, rfl⟩
  | insert settings table => exact .insert ⟨rfl, .none, rfl, rfl, rfl, .none, rfl⟩
  | update settings table name => exact .update ⟨rfl, .none, rfl, rfl, .nil, rfl, .nil, none, rfl⟩
  | delete settings table name => exact .delete ⟨rfl, .none, rfl, rfl, rfl, none, rfl⟩

private theorem columns_eq {given given' : Value} {rows rows' : List (Value × Value)}
    (columns : given.rowColumns = given'.rowColumns) (taken : given.takeOverPairs.Yields rows)
    (taken' : given'.takeOverPairs.Yields rows') : rows.map (·.1) = rows'.map (·.1) := by
  rw [Value.rowColumns_of_takeOverPairs taken, Value.rowColumns_of_takeOverPairs taken'] at columns
  exact Except.ok.inj columns

private theorem twin_of_words {anyCase : Bool} {field connective : Value} {words words' : List Value}
    (count : words.length = words'.length) {before before' after after' : Chain} (twin : before.Twin before')
    (done : (before.linkWords (words.map (Chain.Edit.containing anyCase field · connective))).Yields after)
    (done' : (before'.linkWords (words'.map (Chain.Edit.containing anyCase field · connective))).Yields after') :
    after.Twin after' := by
  unfold Chain.linkWords at done done'
  induction words generalizing words' before before' with
  | nil =>
    rw [List.eq_nil_of_length_eq_zero count.symm, List.map_nil, List.foldlM_nil, yields_pure] at done'
    rw [List.map_nil, List.foldlM_nil, yields_pure] at done
    rwa [← done, ← done']
  | cons word words ih =>
    obtain ⟨word', words', rfl⟩ := List.exists_cons_of_length_eq_add_one count.symm
    rw [List.map_cons, List.foldlM_cons] at done done'
    obtain ⟨linked, first, done⟩ := done.bind
    obtain ⟨linked', first', done'⟩ := done'.bind
    obtain ⟨edit, written, applied⟩ := first.bind
    obtain ⟨edit', written', applied'⟩ := first'.bind
    have agree := (Chain.Form.Twin.containing anyCase field word word').agree written written'
    exact ih (Nat.succ.inj count) (agree before before' twin linked applied linked' applied') done done'

private theorem twin_of_searched {anyCase : Bool} {field query query' connective : Value}
    {edits edits' : List (Except Error Chain.Edit)} {before before' after after' : Chain} (twin : before.Twin before')
    (read : Chain.Edit.containingWords anyCase field query connective = .ok edits)
    (read' : Chain.Edit.containingWords anyCase field query' connective = .ok edits') (count : edits.length = edits'.length)
    (done : (before.linkWords edits).Yields after) (done' : (before'.linkWords edits').Yields after') : after.Twin after' := by
  obtain ⟨words, -, same⟩ := Outcome.bind_eq_ok.mp read
  obtain ⟨words', -, same'⟩ := Outcome.bind_eq_ok.mp read'
  obtain rfl := Except.ok.inj same
  obtain rfl := Except.ok.inj same'
  rw [List.length_map, List.length_map] at count
  exact twin_of_words count twin done done'

mutual

theorem Query.SameCalls.twin {query query' : Query} : Query.SameCalls query query' → query.Twin query'
  | .finished text length => .built ⟨rfl, length⟩
  | .new new => new.twin
  | .detached before => before.twin.detached
  | .change start call done done' => call.agree _ _ start.twin _ done _ done'

theorem Statement.Edit.SameCalls.agree {edit edit' : Statement.Edit} : Statement.Edit.SameCalls edit edit' → edit.Agree edit'
  | .plain plain => Statement.Edit.agree_of_isPlain plain
  | .ctes parts => Statement.Edit.agree_ctes parts.twin
  | .where connective conditions length => Statement.Edit.agree_where connective conditions.twin length
  | .having conditions length => Statement.Edit.agree_having conditions.twin length
  | .filter restrictions => Statement.Edit.agree_filter restrictions.twin
  | .groupFilter restrictions => Statement.Edit.agree_groupFilter restrictions.twin
  | .join kind sources => Statement.Edit.agree_join ⟨rfl, sources.twin, .none⟩
  | .joinOn kind sources conditions => Statement.Edit.agree_join ⟨rfl, sources.twin, .some conditions.twin⟩
  | .member operator queries => Statement.Edit.agree_member queries.twin.part operator
  | .source queries => Statement.Edit.agree_source queries.twin.part
  | .row column value value' => Statement.Edit.agree_row column value value'
  | .rows columns taken taken' => Statement.Edit.agree_rows (columns_eq columns taken taken')
  | .assignment column value value' => Statement.Edit.agree_assignment column value value'
  | .assignments columns taken taken' => Statement.Edit.agree_assignments (columns_eq columns taken taken')

theorem Cte.SameCalls.twin {ctes ctes' : List (Cte Query)} :
    Cte.SameCalls ctes ctes' → List.Forall₂ (Cte.Twin Query.PartTwin) ctes ctes'
  | .nil => .nil
  | .pending name recursive others => .cons ⟨rfl, .none, rfl⟩ others.twin
  | .cons name recursive queries others => .cons ⟨rfl, .some queries.twin.part, rfl⟩ others.twin

theorem JoinSource.SameCalls.twin {source source' : JoinSource Query} :
    JoinSource.SameCalls source source' → source.Twin Query.PartTwin source'
  | .table reference name => .table reference name
  | .subquery name queries => .subquery queries.twin.part name

theorem Restriction.SameCalls.twin {restriction restriction' : Restriction} :
    Restriction.SameCalls restriction restriction' → restriction.Twin restriction'
  | .chain chains => .chain chains.twin
  | .predicate predicates => .predicate predicates.twin
  | .unusable value copied => .unusable value copied

theorem Condition.SameCalls.twin {condition condition' : Condition} :
    Condition.SameCalls condition condition' → condition.Twin condition'
  | .text text => .text text
  | .predicate predicates => .predicate predicates.twin
  | .chain chains => .chain chains.twin
  | .query queries => .query queries.twin

theorem Predicate.SameCalls.twin {predicate predicate' : Predicate} :
    Predicate.SameCalls predicate predicate' → predicate.Twin predicate'
  | .make made made' => Predicate.twin_of_make made made'
  | .condition conditions made made' => conditions.twin.toPredicate made made'
  | .combine first second made made' => Predicate.twin_of_combine first.twin second.twin made made'
  | .chain chains made made' => (chains.twin.toPredicate _).of_yields made made'

theorem Chain.SameCalls.twin {chain chain' : Chain} : Chain.SameCalls chain chain' → chain.Twin chain'
  | .new => .nil
  | .change start call done done' => call.agree _ _ start.twin _ done _ done'
  | .words start read read' count done done' => twin_of_searched start.twin read read' count done done'

theorem Chain.Edit.SameCalls.agree {edit edit' : Chain.Edit} : Chain.Edit.SameCalls edit edit' → edit.Agree edit'
  | .link connective conditions length => Chain.Edit.agree_link connective conditions.twin length
  | .existence negated connective conditions length => Chain.Edit.agree_existence negated connective conditions.twin
  | .clear => Chain.Edit.agree_clear
  | .form forms written written' => forms.agree written written'

end

/-! ### What is built -/

/-- From whatever traces, both give one text, or both fail with one failure. -/
def Build.SameText (left right : Build BuiltQuery) : Prop :=
  ∀ trace trace', match (runFrom trace left).1, (runFrom trace' right).1 with
    | .ok built, .ok built' => built.text = built'.text
    | .error error, .error error' => error = error'
    | _, _ => False

private theorem sameText_of_alike {left right : Build BuiltQuery} (alike : Alike BuiltQuery.Twin left right) :
    SameText left right := by
  intro trace trace'
  have outcomes := alike trace trace'
  cases first : (runFrom trace left).1 with
  | ok built =>
    rw [first] at outcomes
    cases second : (runFrom trace' right).1 with
    | ok built' =>
      rw [second] at outcomes
      cases outcomes with
      | ok both => exact both.text
    | error error =>
      rw [second] at outcomes
      cases outcomes
  | error error =>
    rw [first] at outcomes
    cases second : (runFrom trace' right).1 with
    | ok built' =>
      rw [second] at outcomes
      cases outcomes
    | error error' =>
      rw [second] at outcomes
      cases outcomes
      rfl

private theorem Chain.Twin.build {chain chain' : Chain} (twin : chain.Twin chain') (start : Value) (withWhere newLine : Bool) :
    Alike BuiltQuery.Twin (chain.build start withWhere newLine) (chain'.build start withWhere newLine) := by
  unfold Chain.build
  rw [twin.isEmpty]
  split
  · exact BuiltQuery.make_alike _ rfl
  · refine (twin.toPredicate newLine).bind fun predicate predicate' both => ?_
    rw [both.text]
    exact .after _ fun bound => BuiltQuery.make_alike _ both.values.length

/-- Whatever the same calls make, its text does not depend on the values that are bound: that of a query built without compaction, that of the bare members of a compound, that of a set of common table expressions, and that of a chain. -/
theorem Query.sameText_of_sameCalls :
    (∀ {query query' : Query}, SameCalls query query' → ∀ deep,
      SameText (query.build (some false) deep) (query'.build (some false) deep)) ∧
    (∀ {compound compound' : Compound Query}, SameCalls (of (.compound compound)) (of (.compound compound')) →
      SameText (compound.map toChild).buildMembers (compound'.map toChild).buildMembers) ∧
    (∀ {cte cte' : Cte Query}, Cte.SameCalls [cte] [cte'] → SameText (cte.map toChild).build (cte'.map toChild).build) ∧
    (∀ {ctes ctes' : List (Cte Query)}, Cte.SameCalls ctes ctes' →
      SameText (Cte.buildAll (ctes.map (Cte.map toChild))) (Cte.buildAll (ctes'.map (Cte.map toChild)))) ∧
    ∀ {chain chain' : Chain}, Chain.SameCalls chain chain' → ∀ start withWhere newLine,
      SameText (chain.build start withWhere newLine) (chain'.build start withWhere newLine) := by
  have parts : ∀ part part' : Query, part.PartTwin part' → Child.Twin part.toChild part'.toChild := fun _ _ both => both
  refine ⟨?_, ?_, ?_, ?_, ?_⟩
  · intro query query' calls deep
    exact sameText_of_alike (calls.twin.build deep)
  · intro compound compound' calls
    cases calls.twin.children with
    | compound twin => exact sameText_of_alike twin.buildMembers
  · intro cte cte' calls
    cases calls.twin with
    | cons twin _ => exact sameText_of_alike (twin.map parts).build
  · intro ctes ctes' calls
    exact sameText_of_alike (Cte.buildAll_alike (Cte.forall₂_map parts calls.twin))
  · intro chain chain' calls start withWhere newLine
    exact sameText_of_alike (calls.twin.build start withWhere newLine)

private def listed (value : Value) : Chain :=
  ⟨[(.and, ⟨.plain "a IN (?)", [value]⟩)]⟩

private def picked (value : Value) : Query :=
  .of (.select { table := .text "t", filter := .chain ⟨listed value, none⟩ })

private theorem sameCalls_picked {value value' : Value}
    (done : ((Chain.Edit.ofText (.text "AND") "a IN (?)" [value]).apply {}).Yields (listed value))
    (done' : ((Chain.Edit.ofText (.text "AND") "a IN (?)" [value']).apply {}).Yields (listed value')) :
    Query.SameCalls (picked value) (picked value') := by
  have written (value : Value) : ((Chain.Form.membership false (.text "a") [value]).edit (.text "AND")).Yields
      (.ofText (.text "AND") "a IN (?)" [value]) := yields_lift.mpr rfl
  have adopted (value : Value) : ((Statement.Edit.where .and (.chain (listed value)) []).apply
      (.select { table := .text "t" })).Yields (picked value).statement := ⟨{}, _, rfl⟩
  have forms : (Chain.Form.membership false (.text "a") [value]).Twin (.membership false (.text "a") [value']) :=
    .membership _ _ rfl
  have chains : Chain.SameCalls (listed value) (listed value') :=
    .change .new (.form forms (written value) (written value')) done done'
  have call : Statement.Edit.SameCalls (.where .and (.chain (listed value)) []) (.where .and (.chain (listed value')) []) :=
    .where .and (.chain chains) rfl
  exact .change (.new (.select {} (.text "t") .null)) call (adopted value) (adopted value')

/-- A membership in a chain that a statement takes for its conditions: a number in the one run, and a text with quotes in the other. -/
theorem Query.sameText_of_sameCalls_picked :
    SameCalls (picked (.int 7)) (picked (.text "x' OR '1' = '1")) ∧
      SameText ((picked (.int 7)).build (some false) none) ((picked (.text "x' OR '1' = '1")).build (some false) none) := by
  have calls : SameCalls (picked (.int 7)) (picked (.text "x' OR '1' = '1")) := sameCalls_picked ⟨{}, _, rfl⟩ ⟨{}, _, rfl⟩
  exact ⟨calls, @sameText_of_sameCalls.1 _ _ calls none⟩

end SqlCompose
