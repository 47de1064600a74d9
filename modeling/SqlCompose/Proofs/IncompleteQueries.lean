import Mathlib
import SqlCompose.Proofs.ConditionForms
import SqlCompose.Proofs.KindVerdicts

/-!
# Building fails exactly on incomplete queries

What is put together from accepted texts can be built, with or without compaction, unless some statement in it lacks a part; and then building fails for want of a part. No check that is made on the way fails on text that was put together here: markers are as many as values, the highest number belongs to the last value, no number is out of range.

A query is proper if it is made of accepted things at every depth, in its parts as in the queries embedded in its conditions. Two things are asked besides: numbers have to fit into numerals that can be read, and a deep comparison must not meet a signalling NaN. The theorem is by induction on the tree; `Statement.build_settles` is the step.
-/

namespace SqlCompose

open Token Build

/-- The columns that a query is known to have, unless it is an insertion, are expressions. -/
theorem Query.columns_known {query : Query} (answers : query.statement.Answers) (other : query.statement.kind? ≠ some .insert) :
    ∃ columns, query.toChild.columns = .ok columns ∧ ∀ column ∈ columns, IsPhrase column.asText := by
  obtain ⟨statement⟩ := query
  rw [toChild, fold_of]
  change ∃ columns, (statement.map (fold Statement.toChild)).columns = .ok columns ∧ _
  rw [Statement.columns_map]
  cases statement with
  | select s =>
    refine ⟨_, rfl, List.forall_mem_map.mpr fun field member => ?_⟩
    exact (answers.fields field member).isPhrase
  | insert s => exact absurd rfl other
  | _ => exact ⟨_, rfl, List.forall_mem_nil _⟩

theorem Condition.solid_query {query : Query} (answers : query.Answers) (few : query.boundValues.length < 10 ^ Numeral.digitLimit) :
    (Condition.query query).Solid := by
  intro values predicate made
  obtain ⟨built, first, made⟩ := Yields.bind made
  rw [← Query.build_toChild] at first
  exact ((answers few).of_yields first).2.legible.solid_toPredicate made

/-! ### Proper queries -/

mutual

/-- A query that is made of accepted things at every depth, as far as it is built. The rows of an insertion are not given by an insertion. -/
inductive Query.Proper : Query → Prop
  | of {statement : Statement Query} (accepted : statement.Accepted)
      (predicates : ∀ predicate ∈ statement.predicates, Predicate.Proper predicate)
      (parts : ∀ part ∈ statement.rendered, Query.Proper part)
      (source : statement.kind? = some .insert → ∀ source ∈ statement.renderedOwn, source.statement.kind? ≠ some .insert) :
      Query.Proper (.of statement)

/-- A predicate that proper conditions become, whatever their values. -/
inductive Predicate.Proper : Predicate → Prop
  | condition {condition : Condition} {values : List Value} {predicate : Predicate} (proper : Condition.Proper condition)
      (made : (condition.toPredicate values).Yields predicate) : Predicate.Proper predicate
  | form {form : Chain.Form} {connective word : Value} {condition : Condition} {values : List Value} {predicate : Predicate}
      (column : ∀ name, form.column.printed = .ok name → Expressible name ∧ Schemaless name)
      (written : (form.edit connective).Yields (.link word condition values))
      (made : (condition.toPredicate values).Yields predicate) : Predicate.Proper predicate
  | existence {negated : Bool} {condition : Condition} {values : List Value} {predicate : Predicate}
      (proper : Condition.Proper condition) (made : (Chain.existence negated condition values).Yields predicate) :
      Predicate.Proper predicate
  | combine {connective : Connective} {left right predicate : Predicate} (first : Predicate.Proper left)
      (second : Predicate.Proper right) (made : (Predicate.combine connective left right).Yields predicate) :
      Predicate.Proper predicate

/-- A condition that is a clean text without schema tokens, with as many markers printed as read, or made of proper predicates, or a proper query. -/
inductive Condition.Proper : Condition → Prop
  | text {text : Wording} (content : Clean text.content) (printed : Clean text.printed) (schemaless : Schemaless text.content)
      (schemaless' : Schemaless text.printed) (same : countMarkers text.printed = countMarkers text.content) :
      Condition.Proper (.text text)
  | predicate {predicate : Predicate} (proper : Predicate.Proper predicate) : Condition.Proper (.predicate predicate)
  | chain {chain : Chain} (proper : ∀ link ∈ chain.links, Predicate.Proper link.2) : Condition.Proper (.chain chain)
  | query {query : Query} (proper : Query.Proper query) (few : query.boundValues.length < 10 ^ Numeral.digitLimit) :
      Condition.Proper (.query query)

end

/-- A proper query answers for itself: the induction over its parts and over the queries embedded in its conditions. -/
theorem Query.Proper.answers {query : Query} (proper : query.Proper) : query.statement.Answers :=
  @Query.Proper.rec (fun query _ => query.statement.Answers) (fun predicate _ => predicate.Solid) (fun condition _ => condition.Solid)
    (fun accepted _ _ source predicates parts =>
      { toAccepted := accepted
        predicates := predicates
        parts := fun part member => answers_of (parts part member)
        source := fun insert same part member => by
          subst same
          exact columns_known (parts part (List.mem_append_right _ member)) (source rfl part member) })
    (fun _ made solid => solid made)
    (fun column written made => (Predicate.shaped_of_form written made).solid column)
    (fun _ made solid => Predicate.solid_existence solid made)
    (fun _ _ made first second => Predicate.solid_combine first second made)
    (fun content printed schemaless schemaless' same => Condition.solid_text content printed schemaless schemaless' same)
    (fun _ solid => Condition.solid_predicate solid)
    (fun _ solid => Condition.solid_chain solid)
    (fun _ few answers => Condition.solid_query (answers_of answers) few)
    query proper

/-- A common table expression over a proper query, under a name that can be written. -/
structure Cte.Proper (cte : Cte Query) : Prop where
  name : cte.name.IsAlias
  query : ∀ query ∈ cte.query, query.Proper

theorem Cte.Proper.answers {cte : Cte Query} (proper : cte.Proper) : cte.Answers :=
  ⟨proper.name, fun query given => Query.answers_of (proper.query query given).answers⟩

/-! ### When building fails -/

namespace Build

variable {α : Type} {action : Build α} {lacking : Prop}

/-- From every trace the computation fails exactly if something is lacking, and for want of a part. -/
def FailsExactlyIf (action : Build α) (lacking : Prop) : Prop :=
  ∀ trace, ((∃ error, (runFrom trace action).1 = .error error) ↔ lacking) ∧
    ∀ error, (runFrom trace action).1 = .error error → ∃ omission, error = .incomplete omission

theorem Settles.failsExactlyIf {good : α → Prop} (settles : action.Settles lacking good) : action.FailsExactlyIf lacking := by
  intro trace
  have verdict := settles trace
  generalize (runFrom trace action).1 = outcome at verdict
  cases verdict with
  | gives complete fine => simp [complete]
  | fails incomplete => simp [incomplete]

end Build

/-- Whatever is built of proper things fails exactly if it is incomplete, and for want of a part: a query, compacted or not, a common table expression, and a set of these. -/
theorem Query.fails_exactly_if_incomplete :
    (∀ {query : Query}, query.Proper → query.boundValues.length < 10 ^ Numeral.digitLimit → ∀ compact deep,
      query.statement.Comparable compact deep → (query.build compact deep).FailsExactlyIf query.Incomplete) ∧
    (∀ {cte : Cte Query}, cte.Proper → (cte.bindings boundValues).length < 10 ^ Numeral.digitLimit →
      (cte.map toChild).build.FailsExactlyIf cte.Incomplete) ∧
    ∀ {ctes : List (Cte Query)}, (∀ cte ∈ ctes, cte.Proper) → (ctes.flatMap (Cte.bindings boundValues)).length < 10 ^ Numeral.digitLimit →
      (Cte.buildAll (ctes.map (Cte.map toChild))).FailsExactlyIf (∃ cte ∈ ctes, cte.Incomplete) := by
  refine ⟨?_, ?_, ?_⟩
  · intro query proper few compact deep comparable
    obtain ⟨statement⟩ := query
    exact (Statement.build_settles proper.answers few comparable).failsExactlyIf
  · intro cte proper few
    exact (Cte.build_settles proper.answers few).failsExactlyIf
  · intro ctes proper few
    exact (Cte.buildAll_settles (fun cte member => (proper cte member).answers) few).failsExactlyIf

/-! ### Some queries -/

private def selecting (table : Value) (links : List (Connective × Predicate)) : Statement Query :=
  .select { table := table, filter := .chain ⟨⟨links⟩, none⟩ }

private theorem isTable_text : (Value.text "t").IsTable :=
  ⟨"t", rfl, by decide, by decide, .postgres, _, rfl⟩

private theorem isAlias_text {name : Text} (nameable : Nameable name) (schemaless : Schemaless name) : (Value.text name).IsAlias :=
  fun _ => ⟨name, by rw [Value.printed], nameable.expressible, schemaless⟩

private theorem isAlias_null : Value.null.IsAlias := nofun

private theorem proper_selecting {table : Value} (target : table.truthy = true → table.IsTable)
    {links : List (Connective × Predicate)} (proper : ∀ link ∈ links, Predicate.Proper link.2) :
    (Query.of (selecting table links)).Proper := by
  have accepted : (selecting table links).Accepted :=
    { buildable := nofun
      target := fun _ same => Option.some.inj same ▸ target
      aliases := List.forall_mem_singleton.mpr isAlias_null
      furtherTables := List.forall_mem_nil _
      columnNames := List.forall_mem_nil _
      fields := List.forall_mem_nil _
      expressions := List.forall_mem_nil _
      joins := List.forall_mem_nil _
      restrictions := List.forall_mem_cons.mpr ⟨nofun, List.forall_mem_singleton.mpr nofun⟩
      counts := List.forall_mem_nil _
      leaf := nofun }
  refine .of accepted ?_ (List.forall_mem_nil _) nofun
  have predicates : (selecting table links).predicates = links.map (·.2) := by
    simp [selecting, Statement.predicates, Statement.restrictions, Statement.joins, Restriction.predicates, Restriction.none]
  intro predicate member
  rw [predicates] at member
  obtain ⟨link, inside, rfl⟩ := List.mem_map.mp member
  exact proper link inside

private theorem incomplete_selecting {table : Value} {links : List (Connective × Predicate)} :
    (Query.of (selecting table links)).Incomplete ↔ table.truthy = false := by
  rw [Query.incomplete_iff]
  simp [selecting, Statement.Lacks, Statement.ctes, Statement.joins, Statement.renderedOwn]

private def comparison (column : Text) (value : Value) : Connective × Predicate :=
  (.and, ⟨.plain (column ++ " = ?"), [value]⟩)

private def missing : Query :=
  .of (selecting .null [])

private def comparing : Query :=
  .of (selecting (.text "t") [comparison "a" (.int 7)])

private theorem proper_comparing : comparing.Proper := by
  have condition : Condition.Proper (.text (.plain "a = ?")) := .text (by decide) (by decide) (by decide) (by decide) rfl
  have compared : Predicate.Proper (comparison "a" (.int 7)).2 := @Predicate.Proper.condition _ [.int 7] _ condition ⟨{}, _, rfl⟩
  exact proper_selecting (fun _ => isTable_text) (List.forall_mem_singleton.mpr compared)

private def uniting : Query :=
  .of (.compound { name := .text "u", members := [⟨comparing, .union⟩, ⟨missing, .union⟩] })

private theorem proper_uniting : uniting.Proper := by
  have accepted : (Statement.compound { name := .text "u", members := [⟨comparing, .union⟩, ⟨missing, .union⟩] }).Accepted :=
    { buildable := nofun
      target := nofun
      aliases := List.forall_mem_singleton.mpr (isAlias_text (by decide) (by decide))
      furtherTables := List.forall_mem_nil _
      columnNames := List.forall_mem_nil _
      fields := List.forall_mem_nil _
      expressions := List.forall_mem_nil _
      joins := List.forall_mem_nil _
      restrictions := List.forall_mem_cons.mpr ⟨nofun, List.forall_mem_singleton.mpr nofun⟩
      counts := List.forall_mem_nil _
      leaf := nofun }
  refine .of accepted (List.forall_mem_nil _) ?_ nofun
  exact List.forall_mem_cons.mpr ⟨proper_comparing, List.forall_mem_singleton.mpr (@proper_selecting .null nofun [] (List.forall_mem_nil _))⟩

private theorem boundValues_comparing : comparing.boundValues = [.int 7] := by
  rw [comparing, Query.boundValues_of]
  rfl

private theorem boundValues_uniting : uniting.boundValues = [.int 7] := by
  have none : missing.boundValues = [] := by
    rw [missing, Query.boundValues_of]
    rfl
  rw [uniting, Query.boundValues_of, Statement.bindings, Statement.ownBindings]
  simp [boundValues_comparing, none, Statement.ctes, Restriction.values, Restriction.predicates, Restriction.none]

private theorem incomplete_uniting : uniting.Incomplete := by
  refine @Query.Incomplete.part _ missing (List.mem_append_right _ ?_) (incomplete_selecting.mpr rfl)
  simp [Statement.renderedOwn]

/-- A common table expression, and one that has neither a name nor a statement. -/
private def named : List (Cte Query) :=
  [⟨.text "c", some comparing, .null⟩, {}]

/-- A member without a table makes a compound statement fail, and a common table expression without a name a set of them. -/
theorem Query.fails_exactly_if_incomplete_member :
    uniting.Incomplete ∧ (uniting.build (some true) (some true)).FailsExactlyIf uniting.Incomplete ∧
      (Cte.build (Cte.map toChild ⟨.text "c", some comparing, .null⟩)).FailsExactlyIf (Cte.Incomplete ⟨.text "c", some comparing, .null⟩) ∧
      (Cte.buildAll (named.map (Cte.map toChild))).FailsExactlyIf (∃ cte ∈ named, cte.Incomplete) := by
  have few : (1 : Nat) < 10 ^ Numeral.digitLimit := Nat.one_lt_pow (by decide) (by decide)
  have proper : Cte.Proper ⟨.text "c", some comparing, .null⟩ :=
    ⟨isAlias_text (by decide) (by decide), fun query given => Option.some.inj given ▸ proper_comparing⟩
  have bound : Cte.bindings boundValues ⟨.text "c", some comparing, .null⟩ = [.int 7] := boundValues_comparing
  have comparable : uniting.statement.Comparable (some true) (some true) := by
    intro settings _ _ _
    change ∀ value ∈ uniting.boundValues, value.IsQuiet
    rw [boundValues_uniting]
    decide
  refine ⟨incomplete_uniting, ?_, ?_, ?_⟩
  · exact fails_exactly_if_incomplete.1 proper_uniting (by rw [boundValues_uniting]; exact few) (some true) (some true) comparable
  · exact fails_exactly_if_incomplete.2.1 proper (by rw [bound]; exact few)
  · refine fails_exactly_if_incomplete.2.2 (List.forall_mem_cons.mpr ⟨proper, List.forall_mem_singleton.mpr ⟨nofun, nofun⟩⟩) ?_
    change (Cte.bindings boundValues ⟨.text "c", some comparing, .null⟩ ++ []).length < _
    rw [List.append_nil, bound]
    exact few

/-! ### Where the conditions fail -/

private def signalling (label : Label) : Value :=
  .decimalNaN label "sNaN"

private def comparingSignals : Query :=
  .of (selecting (.text "t") [comparison "a" (signalling 0), comparison "b" (signalling 1)])

private theorem proper_comparingSignals : comparingSignals.Proper := by
  have first : Condition.Proper (.text (.plain "a = ?")) := .text (by decide) (by decide) (by decide) (by decide) rfl
  have second : Condition.Proper (.text (.plain "b = ?")) := .text (by decide) (by decide) (by decide) (by decide) rfl
  refine proper_selecting (fun _ => isTable_text) (List.forall_mem_cons.mpr ⟨?_, List.forall_mem_singleton.mpr ?_⟩)
  · exact @Predicate.Proper.condition _ [signalling 0] _ first ⟨{}, _, rfl⟩
  · exact @Predicate.Proper.condition _ [signalling 1] _ second ⟨{}, _, rfl⟩

private def insertion {Q : Type} (source : Q) : Insert Q :=
  { table := .text "t", source := some source }

private theorem runFrom_known {α β : Type} {outcome : Except Error β} {value : β} (done : outcome = .ok value) (next : β → Build α)
    (trace : Trace) : runFrom trace ((liftM outcome : Build β) >>= next) = runFrom trace (next value) := by
  subst done
  rfl

private theorem runFrom_refused {α β : Type} {first : Build β} {error : Error} {trace after : Trace}
    (failed : runFrom trace first = (.error error, after)) (next : β → Build α) :
    runFrom trace (first >>= next) = (.error error, after) := by
  rw [runFrom_bind, failed]

/-- What cannot be renumbered cannot give the rows of an insertion. -/
private theorem fails_at_source {built : BuiltQuery} {fragment : Fragment} (read : built.toFragment = .ok fragment) {error : Error}
    (refused : fragment.renumber 1 = .error error) (trace : Trace) :
    runFrom trace ((Query.of (.insert (insertion (.of (.built built))))).build (some false) none) = (.error error, trace) := by
  have child : (Query.of (.built built)).toChild = (Statement.built built).toChild := Query.fold_of _ _
  have numbered : runFrom trace (liftM (fragment.renumber 1) : Build (Numbered Wording)) = (.error error, trace) := by
    rw [refused]
    rfl
  have target : Identifier.quoteTableValue .postgres (.text "t") = .ok "\"t\"" := rfl
  have clause : runFrom trace ((insertion (Statement.built built).toChild).sourceClause (Statement.built built).toChild 1) =
      (.error error, trace) :=
    (runFrom_known target _ _).trans ((runFrom_known read _ _).trans (runFrom_refused numbered _))
  have sequence : runFrom trace (Clause.sequence 1 [(insertion (Statement.built built).toChild).sourceClause
      (Statement.built built).toChild, .returning .postgres []]) = (.error error, trace) := by
    rw [Clause.sequence]
    exact runFrom_refused clause _
  have rendered : runFrom trace (insertion (Statement.built built).toChild).render = (.error error, trace) :=
    runFrom_refused sequence _
  rw [← child] at rendered
  exact runFrom_refused rendered _

private theorem complete_insertion (built : BuiltQuery) : ¬ (Query.of (.insert (insertion (.of (.built built))))).Incomplete := by
  have leaf : ¬ (Query.of (.built built)).Incomplete := by
    rw [Query.incomplete_iff]
    simp [Statement.Lacks, Statement.ctes, Statement.joins, Statement.renderedOwn]
  rw [Query.incomplete_iff]
  simp [insertion, Statement.Lacks, Statement.ctes, Statement.joins, Statement.renderedOwn, leaf]
  rfl

private def pagedFar : Query :=
  .of (.select { table := .text "t", paging := ⟨some (10 ^ 4300), none⟩ })

private theorem complete_pagedFar : ¬ pagedFar.Incomplete := by
  rw [pagedFar, Query.incomplete_iff]
  simp [Statement.Lacks, Statement.ctes, Statement.joins, Statement.renderedOwn]
  decide

private theorem runFrom_of_failed {α : Type} {action : Build α} {error : Error}
    (failed : (runFrom {} action).1.map (fun _ => ()) = .error error) : ∃ after, runFrom {} action = (.error error, after) := by
  cases done : runFrom {} action with
  | mk outcome after =>
    rw [done] at failed
    cases outcome with
    | ok value => cases failed
    | error other =>
      cases failed
      exact ⟨after, rfl⟩

/-- Three ways to fail that are not incompleteness: a deep comparison meets a signalling NaN, the number of a finished query has too many digits to be read, or a limit has too many digits to be written. -/
theorem Query.fails_though_complete :
    (comparingSignals.Proper ∧ ¬ comparingSignals.Incomplete ∧
      ∃ after, runFrom {} (comparingSignals.build (some true) (some true)) = (.error .incomparable, after)) ∧
    (¬ pagedFar.Incomplete ∧ ∃ after, runFrom {} (pagedFar.build none none) = (.error .numberTooLong, after)) ∧
    Slotted.Balanced ('$' :: (List.replicate 4300 '0' ++ ['1'])) ∧
    Fragment.Fits ⟨.plain ('$' :: (List.replicate 4300 '0' ++ ['1'])), [.int 5]⟩ ∧
    ¬ (Query.of (.insert (insertion (.of (.built ⟨.text ('$' :: (List.replicate 4300 '0' ++ ['1'])), [.int 5]⟩))))).Incomplete ∧
    runFrom {} ((Query.of (.insert (insertion (.of (.built ⟨.text ('$' :: (List.replicate 4300 '0' ++ ['1'])), [.int 5]⟩))))).build
      (some false) none) = (.error (.numeralTooLong 4301), {}) := by
  have signals : ¬ comparingSignals.Incomplete := by
    rw [comparingSignals, incomplete_selecting]
    decide
  have balanced := Quoted.balanced_of_no_quotes (not_isQuote_of_mem_placeholder (@Fragment.isDigit_padded 4300))
  exact ⟨⟨proper_comparingSignals, signals, runFrom_of_failed (by decide +kernel)⟩,
    ⟨complete_pagedFar, runFrom_of_failed (by decide +kernel)⟩, balanced, Fragment.fits_padded 4300, complete_insertion _,
    fails_at_source rfl (Fragment.renumber_padded (Nat.le_refl 4300) 1) {}⟩

end SqlCompose
