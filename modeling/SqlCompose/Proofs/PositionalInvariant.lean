import Mathlib
import SqlCompose.Proofs.ConditionForms
import SqlCompose.Proofs.KindNumbers

/-!
# The numbers of a built statement

The placeholders of a built statement are numbered from one without a gap, in the order of the text, one for each value.

This is not true of whatever a caller writes. What a statement is made of has to be clean: conditions with closed quotes and no sign in front of a digit, expressions with closed quotes, names without quotes, and neither with a dollar sign in front of a digit, and schemas that are plain words. A query is clean if it is made of clean things at every depth, in its parts as in the queries embedded in its conditions. The theorem is by induction on this tree; `Statement.build_inRow` is the step.
-/

namespace SqlCompose

open Token Build

theorem Statement.inRow_map {statement : Statement Query} (outside : statement.CleanOutside)
    (predicates : ∀ predicate ∈ statement.predicates, predicate.Ready)
    (children : ∀ child ∈ statement.children, child.toChild.InRow) : (statement.map Query.toChild).InRow := by
  refine ⟨⟨?_, ?_, ?_, ?_, ?_⟩, ?_, ?_⟩
  · rw [names_map]
    exact outside.names
  · rw [fields_map]
    exact outside.fields
  · rw [expressions_map]
    exact outside.expressions
  · rw [settings?_map]
    exact outside.schemas
  · intro query same
    cases statement with
    | built given =>
      cases same
      exact outside.leaf query rfl
    | _ => cases same
  · rw [predicates_map]
    exact predicates
  · rw [children_map]
    intro child member
    obtain ⟨query, inside, rfl⟩ := List.mem_map.mp member
    exact children query inside

/-- The columns that a clean statement is known to have are expressions. -/
theorem Statement.isExpression_columns {Q : Type} {statement : Statement Q} (outside : statement.CleanOutside)
    {columns : List Value} (known : statement.columns = .ok columns) : ∀ column ∈ columns, column.IsExpression := by
  cases statement with
  | select s =>
    obtain rfl := Except.ok.inj known
    intro column member
    obtain ⟨field, inside, rfl⟩ := List.mem_map.mp member
    exact (outside.fields field inside).isExpression
  | insert s => cases known
  | _ =>
    obtain rfl := Except.ok.inj known
    simp

theorem Query.inRow_toChild {query : Query} (inRow : (query.statement.map toChild).InRow) : query.toChild.InRow := by
  obtain ⟨statement⟩ := query
  rw [toChild, fold_of]
  refine ⟨fun built yields => Statement.build_inRow inRow yields, fun columns known => ?_⟩
  exact Statement.isExpression_columns inRow.toCleanOutside known

/-! ### Conditions -/

theorem Condition.ready_query {query : Query} (inRow : query.toChild.InRow) : (Condition.query query).Ready := by
  intro values predicate made
  obtain ⟨built, first, made⟩ := Yields.bind made
  rw [← Query.build_toChild] at first
  exact BuiltQuery.ready_toPredicate (inRow.build built first) made

theorem Predicate.ready_existence {negated : Bool} {condition : Condition} {values : List Value} {predicate : Predicate}
    (ready : condition.Ready) (made : (Chain.existence negated condition values).Yields predicate) : predicate.Ready := by
  obtain ⟨inner, first, made⟩ := Yields.bind made
  refine ready_of_plain ?_ made
  have body := (ready first).printed.behind ")" rfl rfl
  rw [List.append_assoc]
  cases negated with
  | true => exact body.literal "NOT EXISTS (" rfl
  | false => exact body.literal "EXISTS (" rfl

/-! ### Clean queries -/

mutual

/-- A query that is made of clean things at every depth. -/
inductive Query.Clean : Query → Prop
  | of {statement : Statement Query} (outside : statement.CleanOutside)
      (predicates : ∀ predicate ∈ statement.predicates, Predicate.Clean predicate)
      (children : ∀ child ∈ statement.children, Query.Clean child) : Query.Clean (.of statement)

/-- A predicate that clean conditions become, whatever their values. -/
inductive Predicate.Clean : Predicate → Prop
  | condition {condition : Condition} {values : List Value} {predicate : Predicate} (clean : Condition.Clean condition)
      (made : (condition.toPredicate values).Yields predicate) : Predicate.Clean predicate
  | form {form : Chain.Form} {connective word : Value} {condition : Condition} {values : List Value} {predicate : Predicate}
      (column : form.column.IsExpression) (written : (form.edit connective).Yields (.link word condition values))
      (made : (condition.toPredicate values).Yields predicate) : Predicate.Clean predicate
  | existence {negated : Bool} {condition : Condition} {values : List Value} {predicate : Predicate}
      (clean : Condition.Clean condition) (made : (Chain.existence negated condition values).Yields predicate) :
      Predicate.Clean predicate
  | combine {connective : Connective} {left right predicate : Predicate} (first : Predicate.Clean left)
      (second : Predicate.Clean right) (made : (Predicate.combine connective left right).Yields predicate) :
      Predicate.Clean predicate

/-- A condition that is a clean text, or made of clean predicates, or a clean query. -/
inductive Condition.Clean : Condition → Prop
  | text {text : Wording} (content : SqlCompose.Clean text.content) (printed : SqlCompose.Clean text.printed) :
      Condition.Clean (.text text)
  | predicate {predicate : Predicate} (clean : Predicate.Clean predicate) : Condition.Clean (.predicate predicate)
  | chain {chain : Chain} (clean : ∀ link ∈ chain.links, Predicate.Clean link.2) : Condition.Clean (.chain chain)
  | query {query : Query} (clean : Query.Clean query) : Condition.Clean (.query query)

end

/-- A clean query is made of parts in a row: the induction over its parts and over the queries embedded in its conditions. -/
theorem Query.Clean.inRow {query : Query} (clean : query.Clean) : (query.statement.map Query.toChild).InRow :=
  @Query.Clean.rec (fun query _ => (query.statement.map Query.toChild).InRow) (fun predicate _ => predicate.Ready)
    (fun condition _ => condition.Ready)
    (fun outside _ _ predicates children =>
      Statement.inRow_map outside predicates fun child member => Query.inRow_toChild (children child member))
    (fun _ made ready => ready made)
    (fun column written made => Predicate.ready_of_form column written made)
    (fun _ made ready => Predicate.ready_existence ready made)
    (fun _ _ made first second => Predicate.ready_combine first second made)
    (fun content printed => Condition.ready_text content printed)
    (fun _ ready => Condition.ready_predicate ready)
    (fun _ ready => Condition.ready_chain ready)
    (fun _ inRow => Condition.ready_query (Query.inRow_toChild inRow))
    query clean

/-- A common table expression over a clean query. -/
structure Cte.IsClean (cte : Cte Query) : Prop where
  name : cte.name.IsName
  query : ∀ query ∈ cte.query, query.Clean

theorem Cte.IsClean.clean {cte : Cte Query} (isClean : cte.IsClean) : (cte.map Query.toChild).Clean := by
  refine ⟨isClean.name, fun child member => ?_⟩
  obtain ⟨query, given, rfl⟩ := Option.mem_map.mp member
  exact Query.inRow_toChild (isClean.query query given).inRow

/-- Whatever is built has the placeholders one, two and so on, one for each value. -/
def Build.NumbersInRow (action : Build BuiltQuery) : Prop :=
  ∀ {trace after : Trace} {built : BuiltQuery}, runFrom trace action = (.ok built, after) →
    ∃ text, built.text.asText = .ok text ∧ placeholders text = List.range' 1 built.values.length

private theorem numbersInRow_of {action : Build BuiltQuery} (inRow : ∀ {built : BuiltQuery}, action.Yields built → built.InRow) :
    action.NumbersInRow := by
  intro trace after built done
  have placed := inRow ⟨trace, after, done⟩
  obtain ⟨text, shown⟩ := placed.isText
  exact ⟨text, shown, placed.placeholders text (.inr (.inl shown))⟩

/-- The numbers are in a row in all that is built without compaction: in a clean query, in the bare members of a clean compound, in a common table expression over a clean query and in a set of these. -/
theorem Query.placeholders_in_row :
    (∀ {query : Query}, query.Clean → ∀ deep, (query.build (some false) deep).NumbersInRow) ∧
    (∀ {compound : Compound Query}, (of (.compound compound)).Clean → (compound.map toChild).buildMembers.NumbersInRow) ∧
    (∀ {cte : Cte Query}, cte.IsClean → (cte.map toChild).build.NumbersInRow) ∧
    ∀ {ctes : List (Cte Query)}, (∀ cte ∈ ctes, cte.IsClean) → (Cte.buildAll (ctes.map (Cte.map toChild))).NumbersInRow := by
  refine ⟨?_, ?_, ?_, ?_⟩
  · intro query clean deep
    exact numbersInRow_of (Statement.build_inRow clean.inRow)
  · intro compound clean
    exact numbersInRow_of (Compound.buildMembers_inRow clean.inRow)
  · intro cte isClean
    exact numbersInRow_of (Cte.build_inRow isClean.clean.1 isClean.clean.2)
  · intro ctes isClean
    refine numbersInRow_of (Cte.buildAll_inRow fun cte member => ?_)
    obtain ⟨source, inside, rfl⟩ := List.mem_map.mp member
    exact (isClean source inside).clean

private theorem isName_text {name : Text} (nameable : Nameable name) : (Value.text name).IsName := by
  intro text written
  have same : name = text := by
    rcases written with reference | asText | printed
    · exact Except.ok.inj reference
    · exact Except.ok.inj asText
    · rw [Value.printed] at printed
      exact Except.ok.inj printed
  rw [← same]
  exact nameable

private theorem isName_null : Value.null.IsName := by
  intro text written
  rcases written with reference | asText | printed
  · cases reference
  · cases asText
  · have shown : Value.null.printed = .ok "None" := by
      simp only [Value.printed, Value.shown]
      rfl
    rw [← Except.ok.inj (shown.symm.trans printed)]
    decide

private def compare (value : Value) : Predicate :=
  ⟨.plain "a = ?", [value]⟩

private def filtered (value : Value) : Query :=
  .of (.select { table := .text "t", filter := .chain ⟨⟨[(.and, compare value)]⟩, none⟩ })

private theorem clean_filtered {value : Value} (made : (Predicate.make (.plain "a = ?") [value]).Yields (compare value)) :
    (filtered value).Clean := by
  have table : (Value.text "t").IsName := isName_text (by decide)
  have clean : SqlCompose.Clean "a = ?" := by decide
  have becomes : Predicate.Clean (compare value) := .condition (@Condition.Clean.text (.plain "a = ?") clean clean) made
  refine .of ⟨?_, by simp [Statement.fields], by simp [Statement.expressions], by simp [Statement.settings?], by simp⟩ ?_
    (by simp [Statement.children, Statement.ctes, Statement.joins])
  · simpa [Statement.names, Statement.ownNames, Statement.ctes, Statement.joins] using ⟨table, isName_null⟩
  · simpa [Statement.predicates, Statement.restrictions, Statement.joins, Restriction.predicates, Restriction.none] using becomes

private def united : Compound Query :=
  { members := [⟨filtered (.int 7), .unionAll⟩, ⟨filtered (.int 8), .unionAll⟩], name := .text "u" }

/-- Two members of a compound, each with a condition of its own. -/
theorem Query.placeholders_in_row_compound : (of (.compound united)).Clean ∧
    ∃ built after, runFrom {} (united.map toChild).buildMembers = (.ok built, after) ∧
      ∃ text, built.text.asText = .ok text ∧ placeholders text = List.range' 1 built.values.length := by
  have clean : (of (.compound united)).Clean := by
    refine .of ⟨?_, by simp [Statement.fields, united], by simp [Statement.expressions], by simp [Statement.settings?, united],
      by simp⟩ (by simp [Statement.predicates, Statement.restrictions, Statement.joins, Restriction.predicates,
        Restriction.none, united]) ?_
    · have name : (Value.text "u").IsName := isName_text (by decide)
      simpa [Statement.names, Statement.ownNames, Statement.ctes, Statement.joins, united] using name
    · have first : (filtered (.int 7)).Clean := clean_filtered ⟨{}, _, rfl⟩
      have second : (filtered (.int 8)).Clean := clean_filtered ⟨{}, _, rfl⟩
      simpa [Statement.children, Statement.ctes, Statement.joins, united] using ⟨first, second⟩
  have succeeds : (runFrom {} (united.map toChild).buildMembers).1.isOk = true := by decide +kernel
  cases done : runFrom {} (united.map toChild).buildMembers with
  | mk outcome after =>
    rw [done] at succeeds
    cases outcome with
    | error _ => cases succeeds
    | ok built => exact ⟨clean, built, after, rfl, placeholders_in_row.2.1 clean done⟩

end SqlCompose
