import Mathlib
import SqlCompose.Proofs.QuietValues

/-!
# Statements that fail only for want of a part

A statement whose names, expressions and conditions are accepted, over statements that answer for themselves, fails exactly if it is incomplete, and for want of a part; otherwise it binds its values in the order of the text. There is one section for each kind, and `Statement.build_settles` goes through the kinds.
-/

namespace SqlCompose

open Token Build

/-! ### Accepted statements -/

namespace Statement

variable {Q : Type}

/-- The table that a statement is about. -/
def target? : Statement Q → Option Value
  | select s => some s.table
  | insert s => some s.table
  | update s => some s.table
  | delete s => some s.table
  | built _ | compound _ | unbuildable => none

/-- The aliases of a statement and of its target, and the names of its common table expressions. -/
def aliases (statement : Statement Q) : List Value :=
  statement.ctes.map (·.name) ++ match statement with
    | select s => [s.name]
    | compound s => [s.name]
    | update s => [s.name]
    | delete s => [s.name]
    | built _ | insert _ | unbuildable => []

/-- Further tables with their aliases, besides joins. -/
def furtherTables : Statement Q → List (Value × Value)
  | update s => s.origin.toList
  | delete s => s.others
  | _ => []

/-- The columns that are named outside of column lists. -/
def columnNames : Statement Q → List Value
  | select s => s.groups ++ s.orders.map (·.field)
  | compound s => s.groups ++ s.orders.map (·.field)
  | insert s => s.rows.map (·.1) ++ s.columns
  | update s => s.assignments.map (·.1)
  | built _ | delete _ | unbuildable => []

/-- The counts of the rows that are wanted and of those that are passed over. -/
def counts : Statement Q → List Nat
  | select s => s.paging.counts
  | compound s => s.paging.counts
  | _ => []

/-- What a statement is made of besides other statements is accepted wherever it is written; a table that counts as missing may be anything, and the counts have few enough digits to be written. -/
structure Accepted (statement : Statement Q) : Prop where
  buildable : statement ≠ .unbuildable
  target : ∀ table ∈ statement.target?, table.truthy = true → table.IsTable
  aliases : ∀ name ∈ statement.aliases, name.IsAlias
  furtherTables : ∀ used ∈ statement.furtherTables, used.1.IsTable ∧ used.2.IsAlias
  columnNames : ∀ column ∈ statement.columnNames, column.IsColumn
  fields : ∀ field ∈ statement.fields, field.IsProper
  expressions : ∀ expression ∈ statement.expressions, IsPhrase expression.printed
  joins : ∀ join ∈ statement.joins, join.source.Accepted
  restrictions : ∀ restriction ∈ statement.restrictions, ∀ value copied, restriction ≠ .unusable value copied
  counts : ∀ count ∈ statement.counts, count < 10 ^ Numeral.digitLimit
  leaf : ∀ query, statement = .built query → query.Legible

/-- An accepted statement with solid predicates, over statements that answer for themselves. -/
structure Answers (statement : Statement Query) : Prop extends statement.Accepted where
  predicates : ∀ predicate ∈ statement.predicates, predicate.Solid
  parts : ∀ part ∈ statement.rendered, part.Answers
  source : ∀ insert, statement = .insert insert → ∀ source ∈ (Statement.insert insert).renderedOwn,
    ∃ columns, source.toChild.columns = .ok columns ∧ ∀ column ∈ columns, IsPhrase column.asText

namespace Answers

variable {statement : Statement Query}

theorem cte (answers : statement.Answers) : ∀ cte ∈ statement.ctes, cte.Answers := by
  intro cte member
  refine ⟨answers.aliases _ (List.mem_append_left _ (List.mem_map_of_mem member)), fun query given => answers.parts query ?_⟩
  exact List.mem_append_left _ (List.mem_append_left _ (List.mem_filterMap.mpr ⟨cte, member, given⟩))

theorem join (answers : statement.Answers) : ∀ join ∈ statement.joins, join.Answers := by
  intro join member
  refine ⟨answers.joins join member, fun predicate given => answers.predicates predicate ?_, fun child given => answers.parts child ?_⟩
  · exact List.mem_append_right _ (List.mem_filterMap.mpr ⟨join, member, given⟩)
  · exact List.mem_append_left _ (List.mem_append_right _ (List.mem_filterMap.mpr ⟨join, member, given⟩))

theorem solid (answers : statement.Answers) : ∀ restriction ∈ statement.restrictions, restriction.Solid := by
  intro restriction member
  have inside : ∀ predicate ∈ restriction.predicates, predicate.Solid := fun predicate given =>
    answers.predicates predicate (List.mem_append_left _ (List.mem_flatMap.mpr ⟨restriction, member, given⟩))
  cases restriction with
  | chain held => exact fun link given => inside _ (List.mem_map_of_mem given)
  | predicate p => exact inside p (by simp [Restriction.predicates])
  | unusable value copied => exact absurd rfl (answers.restrictions _ member value copied)

theorem joins_render (answers : statement.Answers) (flavor : Flavor) :
    Clause.AllRender ((statement.joins.map (Join.map Query.toChild)).map (Join.render flavor))
      (∃ join ∈ statement.joins, join.Incomplete) (statement.joins.flatMap (Join.bindings Query.boundValues)) := by
  rw [List.map_map]
  exact .map fun join member => Join.render_renders (answers.join join member) flavor

/-- The clauses behind the common table expressions make up the statement. -/
theorem assembled (answers : statement.Answers) (few : (Query.of statement).boundValues.length < 10 ^ Numeral.digitLimit)
    {ctes : Option (List (Cte Query))} (given : ctes.getD [] = statement.ctes) {clauses : List Clause} {lacking : Prop}
    (others : Clause.AllRender clauses lacking (statement.ownBindings Query.boundValues)) :
    (Clause.assemble (.with (ctes.map (·.map (Cte.map Query.toChild))) :: clauses)).Settles
      ((∃ cte ∈ statement.ctes, cte.Incomplete) ∨ lacking) (·.Binds (Query.of statement).boundValues) := by
  rw [Query.boundValues_of, bindings] at few ⊢
  have room : Room 1 (statement.ctes.flatMap (Cte.bindings Query.boundValues) ++ statement.ownBindings Query.boundValues).length :=
    ⟨le_rfl, by omega⟩
  rw [List.length_append] at few
  refine Clause.assemble_settles ?_ others room
  rw [← given]
  exact Clause.with_renders (given ▸ answers.cte) (by rw [given]; omega)

end Answers

end Statement

/-! ### SELECT -/

namespace Select

variable {s : Select Query}

private theorem selected_total (proper : ∀ field ∈ s.fields, field.IsProper) :
    ∃ texts, s.selected = .ok texts ∧ ∀ text ∈ texts, Spans text 0 0 := by
  unfold selected
  split
  · exact ⟨_, rfl, List.forall_mem_singleton.mpr (.of_plain rfl 0)⟩
  · exact Field.renderAll_total proper s.settings.flavor

private theorem grouping_total (proper : ∀ field ∈ s.fields, field.IsProper) (groups : ∀ group ∈ s.groups, group.IsColumn) :
    ∃ texts, s.grouping = .ok texts ∧ ∀ text ∈ texts, Spans text 0 0 := by
  obtain ⟨given, quoted, first⟩ := Identifier.quoteColumns_total groups s.settings.flavor
  obtain ⟨columns, chosen, second⟩ := selected_total proper
  have shape : ∃ listed : List Text, (∀ text ∈ listed, Spans text 0 0) ∧
      s.grouping = .ok (given ++ listed.filter fun (text : Text) => text != "*").eraseDups := by
    unfold grouping
    rw [quoted, Outcome.bind_ok]
    simp only
    split
    · exact ⟨columns, second, by rw [chosen]; rfl⟩
    · exact ⟨[], List.forall_mem_nil _, rfl⟩
  obtain ⟨listed, others, done⟩ := shape
  refine ⟨_, done, fun text member => ?_⟩
  rcases List.mem_append.mp (List.mem_eraseDups.mp member) with near | far
  · exact first text near
  · exact others text (List.mem_of_mem_filter far)

private theorem selectClause_settles (proper : ∀ field ∈ s.fields, field.IsProper) :
    s.selectClause.Settles False fun written => Spans written 0 0 := by
  obtain ⟨columns, chosen, spans⟩ := selected_total proper
  refine .known chosen (.pure ?_)
  have listed := (Spans.join_bare ",\n " rfl (by decide) spans).literal "\n " rfl
  simp only [List.append_assoc]
  split
  · exact listed.literal _ rfl
  · exact listed.literal _ rfl

private theorem fromClause_settles (isTable : s.table.IsTable) (isAlias : s.name.IsAlias) :
    s.fromClause.Settles False fun written => Spans written 0 0 := by
  obtain ⟨quoted, shortName, table, named, spans⟩ := @spans_target s.table s.name isTable isAlias s.settings.flavor " AS " rfl (by decide)
  refine .known table (.known named (.pure ?_))
  rw [List.append_assoc]
  exact spans.literal _ rfl

private theorem groupClause_settles (proper : ∀ field ∈ s.fields, field.IsProper) (groups : ∀ group ∈ s.groups, group.IsColumn) :
    s.groupClause.Settles False fun outcome => ∀ written ∈ outcome, Spans written 0 0 := by
  obtain ⟨texts, grouped, spans⟩ := grouping_total proper groups
  refine .known grouped (.pure fun written member => ?_)
  split at member
  · cases member
  · obtain rfl := Option.some.inj member
    exact .literal _ rfl (.join_bare ", " rfl (by decide) spans)

private theorem pagingClause_settles {paging : Paging} (few : ∀ count ∈ paging.counts, count < 10 ^ Numeral.digitLimit) :
    (pagingClause paging).Settles False fun outcome => ∀ written ∈ outcome, Spans written 0 0 := by
  obtain ⟨lines, written, spans⟩ := Outcome.mapM_total (Paging.spans_render few)
  refine .known written (.pure fun written member => ?_)
  split at member
  · cases member
  · obtain rfl := Option.some.inj member
    exact .join_bare " " rfl (by decide) spans

theorem render_settles (answers : (Statement.select s).Answers)
    (few : (Query.of (.select s)).boundValues.length < 10 ^ Numeral.digitLimit) :
    (s.map Query.toChild).render.Settles (Query.of (.select s)).Incomplete (·.Binds (Query.of (.select s)).boundValues) := by
  have columns : ∀ column ∈ s.groups ++ s.orders.map (·.field), column.IsColumn := answers.columnNames
  have groups : ∀ group ∈ s.groups, group.IsColumn := fun group member => columns group (List.mem_append_left _ member)
  have orders : ∀ order ∈ s.orders, order.field.IsColumn := fun order member =>
    columns _ (List.mem_append_right _ (List.mem_map_of_mem member))
  have isAlias : s.name.IsAlias := answers.aliases s.name (List.mem_append_right _ (List.mem_singleton_self _))
  have filter : s.filter.Solid := answers.solid s.filter (by simp [Statement.restrictions])
  have having' : s.having.Solid := answers.solid s.having (by simp [Statement.restrictions])
  have conditions :=
    Clause.AllRender.behind (@Clause.conditions_renders "WHERE" rfl _ filter)
      (.bare (Clause.optional_renders (groupClause_settles answers.fields groups))
        (.behind (@Clause.conditions_renders "HAVING" rfl _ having')
          (.bare (Clause.orderBy_renders orders s.settings.flavor)
            (.bare (Clause.optional_renders (pagingClause_settles answers.counts)) .nil))))
  rw [List.append_nil] at conditions
  have body (given : s.table.truthy = true) :=
    answers.assembled few rfl (.bare (Clause.plain_renders (selectClause_settles answers.fields))
      (.bare (Clause.plain_renders (fromClause_settles (answers.target s.table rfl given) isAlias))
        ((answers.joins_render s.settings.flavor).append conditions)))
  refine Settles.congr ((Settles.require _ _ _).bind fun _ given => body given) ?_
  rw [Query.incomplete_iff]
  simp [Statement.Lacks, Statement.renderedOwn, map]

end Select

/-! ### UPDATE -/

namespace Update

variable {s : Update Query}

/-- Assigned values take numbers in turn, and assigned expressions take none. -/
private theorem assign_total {flavor : Flavor} {assignments : List (Value × Assigned)}
    (columns : ∀ assignment ∈ assignments, assignment.1.IsColumn)
    (expressions : ∀ column expression, (column, .expression expression) ∈ assignments → IsPhrase expression.printed) {start : Nat}
    (room : Room start (assignments.filterMap (·.2.value?)).length) :
    ∃ texts, assign flavor start assignments = .ok (texts, assignments.filterMap (·.2.value?)) ∧
      Spans.InTurn texts start (assignments.filterMap (·.2.value?)).length := by
  induction assignments generalizing start with
  | nil => exact ⟨[], rfl, .nil⟩
  | cons assignment rest ih =>
    obtain ⟨column, assigned⟩ := assignment
    have further := fun {start} => @ih (fun other member => columns other (List.mem_cons_of_mem _ member))
      (fun column expression member => expressions column expression (List.mem_cons_of_mem _ member)) start
    obtain ⟨quoted, named, left⟩ := (columns (column, assigned) (by simp)).quoted flavor
    cases assigned with
    | expression expression =>
      obtain ⟨written, shown, right⟩ := (expressions column expression (by simp)).spans
      obtain ⟨texts, there, inTurn⟩ := further room
      refine ⟨(quoted ++ " = " ++ written) :: texts, ?_, ?_⟩
      · rw [assign, named, Outcome.bind_ok]
        simp only
        rw [shown, Outcome.bind_ok, there]
        rfl
      · rw [List.append_assoc]
        have here := (left.append_bare (right.literal " = " rfl) (.literal (by decide) _)).anywhere start
        have whole := Spans.InTurn.cons here inTurn
        rwa [Nat.zero_add] at whole
    | value value =>
      have taken : ((column, Assigned.value value) :: rest).filterMap (·.2.value?) = value :: rest.filterMap (·.2.value?) := rfl
      rw [taken, List.length_cons, Nat.add_comm] at room ⊢
      obtain ⟨texts, there, inTurn⟩ := further room.later
      have small : start < 10 ^ Numeral.digitLimit := by
        have within := room.within
        omega
      refine ⟨(quoted ++ " = " ++ numbered start) :: texts, ?_, ?_⟩
      · have written : Numeral.check [(start : Int)] = .ok () :=
          Numeral.check_of_writable
            (List.forall_mem_singleton.mpr (Numeral.writable_of_lt (Int.natCast_nonneg start) (by exact_mod_cast small)))
        have next : (start : Int) + 1 = (start + 1 : Nat) := by push_cast; rfl
        rw [assign, named, Outcome.bind_ok]
        simp only
        rw [written, Outcome.bind_ok, next, there]
        rfl
      · rw [List.append_assoc]
        exact .cons (left.bare_append ((Spans.numbered small).literal " = " rfl) (.literal (by decide) _)) inTurn

private theorem setClause_renders (answers : (Statement.update s).Answers) :
    s.setClause.Renders False (s.assignments.filterMap (·.2.value?)) := by
  intro start room
  have columns : ∀ assignment ∈ s.assignments, assignment.1.IsColumn := fun assignment member =>
    answers.columnNames _ (List.mem_map_of_mem member)
  have expressions : ∀ column expression, (column, .expression expression) ∈ s.assignments → IsPhrase expression.printed :=
    fun column expression member => answers.expressions expression (List.mem_filterMap.mpr ⟨_, member, rfl⟩)
  obtain ⟨texts, done, inTurn⟩ := @assign_total s.settings.flavor _ columns expressions start room
  refine .known done (.pure (.present ⟨?_, .refl _, by push_cast; rfl⟩))
  exact .literal "SET " rfl (.join ", " rfl (by decide) inTurn)

private theorem targetClause_settles (isTable : s.table.IsTable) (isAlias : s.name.IsAlias) :
    s.targetClause.Settles False fun written => Spans written 0 0 := by
  obtain ⟨quoted, shortName, table, named, spans⟩ := @spans_target s.table s.name isTable isAlias s.settings.flavor " " rfl (by decide)
  refine .known table (.known named (.pure ?_))
  rw [List.append_assoc]
  exact spans.literal _ rfl

private theorem fromClause_settles (origin : ∀ used ∈ s.origin, used.1.IsTable ∧ used.2.IsAlias) :
    s.fromClause.Settles False fun outcome => ∀ written ∈ outcome, Spans written 0 0 := by
  unfold fromClause
  cases given : s.origin with
  | none => exact .pure (by simp)
  | some used =>
    obtain ⟨table, name⟩ := used
    obtain ⟨isTable, isAlias⟩ := origin _ given
    obtain ⟨quoted, shortName, found, named, spans⟩ := @spans_target table name isTable isAlias s.settings.flavor " " rfl (by decide)
    refine .known found (.known named (.pure fun written member => ?_))
    obtain rfl := Option.some.inj member
    rw [List.append_assoc]
    exact spans.literal _ rfl

theorem render_settles (answers : (Statement.update s).Answers)
    (few : (Query.of (.update s)).boundValues.length < 10 ^ Numeral.digitLimit) :
    (s.map Query.toChild).render.Settles (Query.of (.update s)).Incomplete (·.Binds (Query.of (.update s)).boundValues) := by
  have isAlias : s.name.IsAlias := answers.aliases s.name (List.mem_append_right _ (List.mem_singleton_self _))
  have origin : ∀ used ∈ s.origin, used.1.IsTable ∧ used.2.IsAlias := fun used member =>
    answers.furtherTables used (Option.mem_toList.mpr member)
  have filter : s.filter.Solid := answers.solid s.filter (by simp [Statement.restrictions])
  have conditions := Clause.AllRender.behind (@Clause.conditions_renders "WHERE" rfl _ filter)
    (.bare (Clause.returning_renders answers.fields s.settings.flavor) .nil)
  rw [List.append_nil] at conditions
  have body (given : s.table.truthy = true) :=
    answers.assembled few rfl (.bare (Clause.plain_renders (targetClause_settles (answers.target s.table rfl given) isAlias))
      (.behind (setClause_renders answers) (.bare (Clause.optional_renders (fromClause_settles origin))
        ((answers.joins_render s.settings.flavor).append conditions))))
  refine Settles.congr ((Settles.require _ _ _).bind fun _ given => (Settles.require _ _ _).bind fun _ _ =>
    (Settles.require _ _ _).bind fun _ _ => body given) ?_
  rw [Query.incomplete_iff]
  simp [Statement.Lacks, Statement.renderedOwn, map, or_assoc]

end Update

/-! ### DELETE -/

namespace Delete

variable {s : Delete Query}

private theorem targetClause_settles (isTable : s.table.IsTable) (isAlias : s.name.IsAlias) :
    s.targetClause.Settles False fun written => Spans written 0 0 := by
  obtain ⟨quoted, shortName, table, named, spans⟩ := @spans_target s.table s.name isTable isAlias s.settings.flavor " AS " rfl (by decide)
  refine .known table (.known named (.pure ?_))
  rw [List.append_assoc]
  exact spans.literal _ rfl

private theorem usedTables_total (others : ∀ used ∈ s.others, used.1.IsTable ∧ used.2.IsAlias) :
    ∃ texts, s.usedTables = .ok texts ∧ ∀ text ∈ texts, Spans text 0 0 := by
  refine Outcome.mapM_total fun used member => ?_
  obtain ⟨isTable, isAlias⟩ := others used member
  obtain ⟨quoted, shortName, found, named, spans⟩ := @spans_target used.1 used.2 isTable isAlias s.settings.flavor " AS " rfl (by decide)
  exact ⟨_, Outcome.bind_eq_ok.mpr ⟨quoted, found, Outcome.bind_eq_ok.mpr ⟨shortName, named, rfl⟩⟩, spans⟩

theorem render_settles (answers : (Statement.delete s).Answers)
    (few : (Query.of (.delete s)).boundValues.length < 10 ^ Numeral.digitLimit) :
    (s.map Query.toChild).render.Settles (Query.of (.delete s)).Incomplete (·.Binds (Query.of (.delete s)).boundValues) := by
  have isAlias : s.name.IsAlias := answers.aliases s.name (List.mem_append_right _ (List.mem_singleton_self _))
  have filter : s.filter.Solid := answers.solid s.filter (by simp [Statement.restrictions])
  have conditions := Clause.AllRender.behind (@Clause.conditions_renders "WHERE" rfl _ filter)
    (.bare (Clause.returning_renders answers.fields s.settings.flavor) .nil)
  rw [List.append_nil] at conditions
  have body (given : s.table.truthy = true) :=
    answers.assembled few rfl (.bare (Clause.plain_renders (targetClause_settles (answers.target s.table rfl given) isAlias))
      (.bare (@Clause.listed_renders "USING " rfl _ (usedTables_total answers.furtherTables) s.others.isEmpty) conditions))
  refine Settles.congr ((Settles.require _ _ _).bind fun _ given => body given) ?_
  rw [Query.incomplete_iff]
  simp [Statement.Lacks, Statement.renderedOwn, Statement.joins, map]

end Delete

/-! ### INSERT -/

namespace Insert

variable {s : Insert Query}

private theorem numbers_inTurn {start count : Nat} (room : Room start count) :
    Spans.InTurn ((numbersFrom start count).map numbered) start count := by
  induction count generalizing start with
  | zero => exact .nil
  | succ count ih =>
    rw [Nat.add_comm] at room
    have small : start < 10 ^ Numeral.digitLimit := by
      have within := room.within
      omega
    have next : (start : Int) + 1 = (start + 1 : Nat) := by push_cast; rfl
    rw [numbersFrom, List.map_cons, next, Nat.add_comm count 1]
    exact .cons (Spans.numbered small) (ih room.later)

private theorem rowClause_renders (isTable : s.table.IsTable) (columns : ∀ row ∈ s.rows, row.1.IsColumn) :
    (s.map Query.toChild).rowClause.Renders False (s.rows.map (·.2)) := by
  intro start room
  rw [List.length_map] at room
  obtain ⟨target, quoted, table⟩ := isTable.quoted s.settings.flavor
  obtain ⟨names, named, listed⟩ := Identifier.quoteColumns_total (List.forall_mem_map.mpr columns) s.settings.flavor
  have written : Numeral.check (numbersFrom start s.rows.length) = .ok () :=
    check_numbersFrom (Int.natCast_nonneg start) (by exact_mod_cast room.within)
  refine .known quoted (.known named (.known written (.pure (.present ⟨?_, .refl _, ?_⟩))))
  · have bound := Spans.join ", " rfl (by decide) (numbers_inTurn room)
    have tail := (Spans.join_bare ", " rfl (by decide) listed).bare_append ((bound.behind ")" rfl (by decide)).literal ") VALUES (" rfl)
      (.literal (by decide) _)
    have whole := (table.bare_append (tail.literal " (" rfl) (.literal (by decide) _)).literal "INSERT INTO " rfl
    simp only [List.length_map, List.append_assoc] at whole ⊢
    exact whole
  · simp [map]

private theorem targetColumns_total {source : Query} (columns : ∀ column ∈ s.columns, column.IsColumn)
    (known : ∃ columns, source.toChild.columns = .ok columns ∧ ∀ column ∈ columns, IsPhrase column.asText) :
    ∃ texts, (s.map Query.toChild).targetColumns source.toChild = .ok texts ∧ ∀ text ∈ texts, Spans text 0 0 := by
  unfold targetColumns
  simp only
  split
  · obtain ⟨given, found, phrases⟩ := known
    rw [found, Outcome.bind_ok]
    exact Outcome.mapM_total fun column member => OutputColumn.targetColumn_total (phrases column member) s.settings.flavor
  · exact Identifier.quoteColumns_total columns s.settings.flavor

private theorem sourceClause_renders {source : Query} (isTable : s.table.IsTable) (columns : ∀ column ∈ s.columns, column.IsColumn)
    (known : ∃ columns, source.toChild.columns = .ok columns ∧ ∀ column ∈ columns, IsPhrase column.asText) (answers : source.Answers) :
    ((s.map Query.toChild).sourceClause source.toChild).Renders source.Incomplete source.boundValues := by
  intro start room
  obtain ⟨target, quoted, table⟩ := isTable.quoted s.settings.flavor
  obtain ⟨names, named, listed⟩ := targetColumns_total columns known
  refine .known quoted (.known named ((answers room.few).andThen fun built holds => ?_))
  obtain ⟨fragment, text, read, renumbered, spans⟩ := holds.renumber room
  refine .known read (.known renumbered (.pure (.present ⟨?_, holds.same, rfl⟩)))
  have body := spans.printed.literal "\n" rfl
  simp only [List.append_assoc]
  split
  · rw [List.nil_append]
    exact .literal _ rfl (table.bare_append body (.literal (by decide) _))
  · have tail := (Spans.join_bare ", " rfl (by decide) listed).bare_append (body.literal ")" rfl) (.literal (by decide) _)
    simp only [List.append_assoc]
    exact .literal _ rfl (table.bare_append (tail.literal " (" rfl) (.literal (by decide) _))

theorem render_settles (answers : (Statement.insert s).Answers)
    (few : (Query.of (.insert s)).boundValues.length < 10 ^ Numeral.digitLimit) :
    (s.map Query.toChild).render.Settles (Query.of (.insert s)).Incomplete (·.Binds (Query.of (.insert s)).boundValues) := by
  have columns : ∀ column ∈ s.rows.map (·.1) ++ s.columns, column.IsColumn := answers.columnNames
  have targets : ∀ column ∈ s.columns, column.IsColumn := fun column member => columns column (List.mem_append_right _ member)
  have finish {body : Clause} {lacking : Prop} (renders : body.Renders lacking ((Statement.insert s).ownBindings Query.boundValues)) :
      (Clause.assemble [.with (s.map Query.toChild).ctes, body, .returning s.settings.flavor s.returning]).Settles
        ((∃ cte ∈ (Statement.insert s).ctes, cte.Incomplete) ∨ lacking) (·.Binds (Query.of (.insert s)).boundValues) := by
    have clauses := Clause.AllRender.cons renders (.bare (Clause.returning_renders answers.fields s.settings.flavor) .nil)
    rw [List.append_nil, or_false] at clauses
    exact answers.assembled few rfl clauses
  have named := Settles.require s.table.truthy Clause.queryLogger .insertTable
  obtain ⟨settings, ctes, table, rows, given, source, returning⟩ := s
  cases rows with
  | cons row rows =>
    have body (isThere : table.truthy = true) := finish (rowClause_renders (answers.target table rfl isThere) fun row member =>
      columns _ (List.mem_append_left _ (List.mem_map_of_mem member)))
    refine Settles.congr (named.bind fun _ isThere => body isThere) ?_
    rw [Query.incomplete_iff]
    simp [Statement.Lacks, Statement.renderedOwn, Statement.joins]
  | nil =>
    cases source with
    | none =>
      have failed : (Build.failFor Clause.queryLogger .insertRows : Build Clause).Settles True fun _ => False := .failFor _ _
      refine Settles.congr (named.bind fun _ _ => failed.andThen fun _ never => never.elim) ?_
      rw [Query.incomplete_iff]
      simp [Statement.Lacks]
    | some source =>
      have child : source.Answers := answers.parts source (List.mem_append_right _ (by simp [Statement.renderedOwn]))
      have known := answers.source _ rfl source (by simp [Statement.renderedOwn])
      have body (isThere : table.truthy = true) := finish (sourceClause_renders (answers.target table rfl isThere) targets known child)
      refine Settles.congr (named.bind fun _ isThere => body isThere) ?_
      rw [Query.incomplete_iff]
      simp [Statement.Lacks, Statement.renderedOwn, Statement.joins]

end Insert

/-! ### Compound statements -/

namespace Compound

variable {s : Compound Query}

private theorem spans_word (operator : SetOperator) : Spans (Keyword.word operator) 0 0 := by
  cases operator <;> exact .of_plain rfl 0

private theorem spans_member {text : Wording} {start count : Nat} (spans : Spans text.printed start count) :
    Spans (Text.indent 1 ("(" ++ text.printed ++ ")")) start count := by
  rw [List.append_assoc]
  exact ((spans.behind ")" rfl (by decide)).literal "(" rfl).indent 1

private theorem laterMembers_spans {texts : List Wording} {start count : Nat}
    (inTurn : Spans.InTurn (texts.map Wording.printed) start count) {operators : List SetOperator}
    (length : texts.length = operators.length) :
    Spans ((texts.zip operators).flatMap fun (text, operator) =>
        laterMember (Text.indent 1) (Text.indent 1 ("(" ++ text.printed ++ ")")) operator) start count ∧
      SetOff ((texts.zip operators).flatMap fun (text, operator) =>
        laterMember (Text.indent 1) (Text.indent 1 ("(" ++ text.printed ++ ")")) operator) := by
  induction texts generalizing start count operators with
  | nil =>
    cases inTurn
    exact ⟨.nil start, .nil⟩
  | cons text texts ih =>
    cases operators with
    | nil => cases length
    | cons operator operators =>
      cases inTurn with
      | cons here there =>
        obtain ⟨others, apart⟩ := ih there (Nat.succ.inj length)
        rw [List.zip_cons_cons, List.flatMap_cons]
        change Spans (laterMember (Text.indent 1) (Text.indent 1 ("(" ++ text.printed ++ ")")) operator ++ _) _ _ ∧
          SetOff (laterMember (Text.indent 1) (Text.indent 1 ("(" ++ text.printed ++ ")")) operator ++ _)
        have inner := ((spans_member here).append others apart).literal "\n\n" rfl
        have whole := ((spans_word operator).indent 1).bare_append inner (.literal (by decide) _)
        rw [laterMember, List.append_assoc, List.append_assoc, List.append_assoc]
        exact ⟨whole.literal _ rfl, .literal (by decide) _⟩

private theorem joinMembers_spans {texts : List Wording} {start count : Nat}
    (inTurn : Spans.InTurn (texts.map Wording.printed) start count) {operators : List SetOperator}
    (length : texts.length = operators.length) : Spans (joinMembers true texts operators) start count := by
  cases texts with
  | nil =>
    cases inTurn
    exact .nil start
  | cons first rest =>
    cases inTurn with
    | cons here there =>
      have tail : rest.length = operators.tail.length := by
        rw [List.length_tail, ← length, List.length_cons]
        rfl
      obtain ⟨others, apart⟩ := laterMembers_spans there tail
      exact (spans_member here).append others apart

/-- The members, numbered one after another from a start. -/
private structure MembersBind (s : Compound Query) (start : Nat) (merged : Fragment.Merged) : Prop where
  binds : merged.Binds start merged.values
  count : merged.texts.length = s.members.length
  same : Value.SameContent merged.values (s.members.flatMap fun member => member.query.boundValues)

private theorem renderMembers_settles (answers : ∀ member ∈ s.members, member.query.Answers) (some : s.members ≠ []) {start : Nat}
    (room : Room start (s.members.flatMap fun member => member.query.boundValues).length) :
    ((s.map Query.toChild).renderMembers start).Settles (∃ member ∈ s.members, member.query.Incomplete) (s.MembersBind start) := by
  have each : ∀ member ∈ s.members, member.query.toChild.build.Settles member.query.Incomplete (·.Holds member.query.boundValues) :=
    fun member inside => answers member inside (Room.few_of_mem room.few inside)
  have numbered : ((s.map Query.toChild).members.mapM (·.query.build) >>= fun built =>
      (liftM (Fragment.mergeFrom BuiltQuery.toFragment start built) : Build Fragment.Merged)).Settles
      (∃ member ∈ s.members, member.query.Incomplete) (s.MembersBind start) := by
    rw [map, List.mapM_map]
    refine (Settles.mapM each).andThen fun built all => ?_
    obtain ⟨legible, same⟩ := BuiltQuery.holds_all all
    rw [← same.length_eq] at room
    obtain ⟨merged, done, binds⟩ := Fragment.mergeFrom_total legible room
    have count : merged.texts.length = s.members.length := by
      rw [Fragment.length_of_mergeFrom done, ← all.length_eq]
    rw [done]
    have values := binds.values
    rw [← values] at binds same
    exact .pure ⟨binds, count, same⟩
  refine Settles.congr ((Settles.require _ _ _).bind fun _ _ => numbered) ?_
  simp [map, some]

private theorem opening_total (proper : ∀ field ∈ s.fields, field.IsProper) :
    ∃ opening, s.opening = .ok opening ∧ Spans opening 0 0 := by
  unfold Compound.opening
  split
  · exact ⟨_, rfl, .of_plain rfl 0⟩
  · obtain ⟨fields, rendered, spans⟩ := Field.renderAll_total proper s.settings.flavor
    refine ⟨_, Outcome.map_eq_ok.mpr ⟨fields, rendered, rfl⟩, ?_⟩
    have listed := (Spans.join_bare ",\n " rfl (by decide) spans).behind "\n FROM (" rfl (by decide)
    rw [List.append_assoc]
    exact listed.literal _ rfl

private theorem tableClause_renders (answers : (Statement.compound s).Answers) (some : s.members ≠ []) (named : s.name.truthy = true) :
    (s.map Query.toChild).tableClause.Renders (∃ member ∈ s.members, member.query.Incomplete)
      (s.members.flatMap fun member => member.query.boundValues) := by
  intro start room
  have members : ∀ member ∈ s.members, member.query.Answers := fun member inside =>
    answers.parts _ (List.mem_append_right _ (List.mem_map_of_mem inside))
  have isAlias : s.name.IsAlias := answers.aliases s.name (List.mem_append_right _ (List.mem_singleton_self _))
  refine (renderMembers_settles members some room).andThen fun merged fine => ?_
  obtain ⟨opening, opened, front⟩ := opening_total answers.fields
  obtain ⟨name, shown, spans⟩ := (isAlias named).spans
  refine .known opened (.known shown (.pure (.present ⟨?_, fine.same, fine.binds.next⟩)))
  have length : merged.texts.length = (s.map Query.toChild).operators.length := by
    rw [fine.count, operators, List.length_map]
    exact (List.length_map _).symm
  have body := (joinMembers_spans fine.binds.printed length).append_bare (spans.literal "\n) AS " rfl) (.literal (by decide) _)
  have whole := front.bare_append (body.literal "\n" rfl) (.literal (by decide) _)
  simp only [List.append_assoc] at whole ⊢
  exact whole

private theorem groupClause_settles (groups : ∀ group ∈ s.groups, group.IsColumn) :
    s.groupClause.Settles False fun outcome => ∀ written ∈ outcome, Spans written 0 0 := by
  unfold groupClause
  split
  · exact .pure (by simp)
  · obtain ⟨texts, quoted, spans⟩ := Identifier.quoteColumns_total groups s.settings.flavor
    refine .known quoted (.pure fun written member => ?_)
    obtain rfl := Option.some.inj member
    exact .literal _ rfl (.join_bare ", " rfl (by decide) spans)

theorem render_settles (answers : (Statement.compound s).Answers)
    (few : (Query.of (.compound s)).boundValues.length < 10 ^ Numeral.digitLimit) :
    (s.map Query.toChild).render.Settles (Query.of (.compound s)).Incomplete (·.Binds (Query.of (.compound s)).boundValues) := by
  have columns : ∀ column ∈ s.groups ++ s.orders.map (·.field), column.IsColumn := answers.columnNames
  have groups : ∀ group ∈ s.groups, group.IsColumn := fun group member => columns group (List.mem_append_left _ member)
  have orders : ∀ order ∈ s.orders, order.field.IsColumn := fun order member =>
    columns _ (List.mem_append_right _ (List.mem_map_of_mem member))
  have filter : s.filter.Solid := answers.solid s.filter (by simp [Statement.restrictions])
  have having' : s.having.Solid := answers.solid s.having (by simp [Statement.restrictions])
  have paging : Clause.AllRender (s.paging.render.map fun line => .plain (liftM line)) False [] := by
    refine (Clause.AllRender.map fun line member => Clause.plain_renders ?_).congr (by simp) (by simp)
    obtain ⟨text, written, spans⟩ := Paging.spans_render answers.counts line member
    exact .lift written spans
  have conditions :=
    Clause.AllRender.behind (@Clause.conditions_renders "WHERE" rfl _ filter)
      (.bare (Clause.optional_renders (groupClause_settles groups))
        (.behind (@Clause.conditions_renders "HAVING" rfl _ having')
          (.bare (Clause.orderBy_renders orders s.settings.flavor) paging)))
  rw [List.append_nil] at conditions
  have body (some : s.members ≠ []) (named : s.name.truthy = true) :=
    answers.assembled few rfl (.cons (tableClause_renders answers some named) conditions)
  refine Settles.congr ((Settles.require _ _ _).bind fun _ given => (Settles.require _ _ _).bind fun _ named =>
    body (by simpa [map] using given) named) ?_
  rw [Query.incomplete_iff]
  simp [Statement.Lacks, Statement.renderedOwn, Statement.joins, map, or_assoc]

end Compound

/-! ### All kinds -/

namespace Statement

variable {statement : Statement Query}

/-- A statement whose values can be compared, as far as it asks for that. -/
def Comparable (statement : Statement Query) (compact deep : Option Bool) : Prop :=
  ∀ settings ∈ statement.settings?, settings.compacts compact = true →
    (settings.sameness deep).Decides (Query.of statement).boundValues

/-- A statement that answers for itself and can be compared as far as it asks for that fails exactly if it is incomplete, and for want of a part; built without compaction it holds its values. -/
theorem build_settles (answers : statement.Answers) (few : (Query.of statement).boundValues.length < 10 ^ Numeral.digitLimit)
    {compact deep : Option Bool} (comparable : statement.Comparable compact deep) :
    ((statement.map Query.toChild).build compact deep).Settles (Query.of statement).Incomplete fun built =>
      compact = some false → built.Holds (Query.of statement).boundValues := by
  have finished {settings : Settings} (kind : StatementKind) {render : Build Fragment} (own : settings ∈ statement.settings?)
      (settles : render.Settles (Query.of statement).Incomplete (·.Binds (Query.of statement).boundValues)) :
      (settings.finish kind render compact deep).Settles (Query.of statement).Incomplete fun built =>
        compact = some false → built.Holds (Query.of statement).boundValues := by
    refine (settings.finish_settles kind settles (comparable settings own)).mono fun built holds asked => holds ?_
    rw [asked]
    rfl
  cases statement with
  | built query =>
    have complete : ¬ (Query.of (.built query)).Incomplete := by
      rw [Query.incomplete_iff]
      simp [Lacks, ctes, joins, renderedOwn]
    have same : (Query.of (.built query)).boundValues = query.values := Query.boundValues_of _
    have given : (pure query : Build BuiltQuery).Settles False fun built =>
        compact = some false → built.Holds (Query.of (.built query)).boundValues :=
      .pure fun _ => ⟨answers.leaf query rfl, by rw [same]; exact .refl _⟩
    exact given.congr (iff_of_false not_false complete)
  | select s => exact finished .select rfl (s.render_settles answers few)
  | compound s => exact finished .union rfl (s.render_settles answers few)
  | insert s => exact finished .insert rfl (s.render_settles answers few)
  | update s => exact finished .update rfl (s.render_settles answers few)
  | delete s => exact finished .delete rfl (s.render_settles answers few)
  | unbuildable => exact absurd rfl answers.buildable

end Statement

/-- A query whose statement answers for itself answers for itself as a part of another. -/
theorem Query.answers_of {query : Query} (answers : query.statement.Answers) : query.Answers := by
  intro few
  obtain ⟨statement⟩ := query
  rw [build_toChild]
  have uncompacted : statement.Comparable (some false) none := fun settings _ asked => nomatch asked
  exact (Statement.build_settles answers few uncompacted).mono fun built holds => holds rfl

end SqlCompose
