import Mathlib
import SqlCompose.Proofs.StatementNumbers
import SqlCompose.Proofs.StatementParts

/-!
# Numbers through each kind of statement

A statement over children is numbered in a row if what it is made of is clean: its names, its expressions and its schemas carry no numbers, its predicates have a marker for each value, and its children are numbered in a row themselves. There is one section for each kind, and `Statement.build_inRow` goes through the kinds.
-/

namespace SqlCompose

open Token Build

/-! ### Clean statements -/

/-- A letter or a low line, and letters, digits and low lines after it, all of ASCII. -/
def isPlainWord : Text → Bool
  | [] => false
  | c :: rest => (c.isAlpha || c == '_') && rest.all fun d => d.isAlphanum || d == '_'

/-- A schema that is given as a plain word. -/
def Value.IsSchema (schema : Value) : Prop :=
  ∃ name, schema.text? = some name ∧ isPlainWord name = true

namespace Statement

variable {Q : Type}

/-- The names, expressions and schemas of a statement carry no numbers; a finished statement is in a row. -/
structure CleanOutside (statement : Statement Q) : Prop where
  names : ∀ name ∈ statement.names, name.IsName
  fields : ∀ field ∈ statement.fields, field.IsClean
  expressions : ∀ expression ∈ statement.expressions, expression.IsExpression
  schemas : ∀ settings ∈ statement.settings?, ∀ schema ∈ settings.schemas, schema.IsSchema
  leaf : ∀ query, statement = .built query → query.InRow

/-- A statement over children that is in a row if it is built. -/
structure InRow (statement : Statement Child) : Prop extends statement.CleanOutside where
  predicates : ∀ predicate ∈ statement.predicates, predicate.Ready
  children : ∀ child ∈ statement.children, child.InRow

end Statement

/-! ### Schemas -/

private theorem isPlain_of_wordPart {c : Char} (part : (c.isAlphanum || c == '_') = true) : isPlain c = true := by
  by_contra special
  have one : c = '?' ∨ c = '$' ∨ c = '\'' ∨ c = '"' ∨ c = '\x60' := by
    simp only [isPlain, isSign, Quoted.isQuote, Bool.and_eq_true, Bool.not_eq_true', Bool.or_eq_false_iff, beq_eq_false_iff_ne,
      decide_eq_false_iff_not] at special
    tauto
  rcases one with rfl | rfl | rfl | rfl | rfl <;> revert part <;> decide

private theorem not_isDigit_of_wordStart {c : Char} (start : (c.isAlpha || c == '_') = true) : Text.isDigit c = false := by
  by_cases line : c = '_'
  · subst line
    decide
  · have letter : c.isAlpha = true := by simpa [line] using start
    have bounds : (65 ≤ c.toNat ∧ c.toNat ≤ 90) ∨ (97 ≤ c.toNat ∧ c.toNat ≤ 122) := by
      simp only [Char.isAlpha, Char.isUpper, Char.isLower, Bool.or_eq_true, decide_eq_true_eq, Bool.and_eq_true] at letter
      exact letter
    have small : c.toNat < 128 := by omega
    have other : c.isDigit = false := by
      by_contra digit
      simp only [Bool.not_eq_false, Char.isDigit, Bool.and_eq_true, decide_eq_true_eq] at digit
      have upper : c.toNat ≤ 57 := digit.2
      omega
    simp [Text.isDigit, Text.digitValue?, small, other]

theorem isName_of_isPlainWord {name : Text} (plain : isPlainWord name = true) : Slotted.IsName name := by
  cases name with
  | nil => cases plain
  | cons c rest =>
    rw [isPlainWord, Bool.and_eq_true] at plain
    refine ⟨by simp, .cons (not_isDigit_of_wordStart plain.1), ?_⟩
    intro d member
    rcases List.mem_cons.mp member with rfl | further
    · refine isPlain_of_wordPart ?_
      rcases Bool.or_eq_true _ _ ▸ plain.1 with letter | line
      · simp [Char.isAlphanum, letter]
      · simp [line]
    · exact isPlain_of_wordPart (List.all_eq_true.mp plain.2 d further)

theorem namedBy_of_isSchema {schemas : List Value} (plain : ∀ schema ∈ schemas, schema.IsSchema) :
    Slotted.NamedBy schemas := by
  intro schema member name shown
  obtain ⟨word, given, isWord⟩ := plain schema member
  have same : Identifier.schemaText schema = .ok word := by
    cases schema with
    | text t => exact congrArg Except.ok (Option.some.inj given)
    | entry e => exact congrArg Except.ok (Option.some.inj given)
    | _ => cases given
  rw [same] at shown
  obtain rfl := Except.ok.inj shown
  exact isName_of_isPlainWord isWord

theorem Settings.finish_inRow {settings : Settings} (schemas : ∀ schema ∈ settings.schemas, schema.IsSchema)
    {kind : StatementKind} {render : Build Fragment}
    (rendered : ∀ fragment, render.Yields fragment → fragment.text.Carries (row 1 fragment.values)) {deep : Option Bool}
    {built : BuiltQuery} (yields : (settings.finish kind render (some false) deep).Yields built) : built.InRow := by
  obtain ⟨fragment, given, further⟩ := Yields.bind yields
  obtain ⟨text, substituted, further⟩ := Yields.bind further
  rw [yields_lift] at substituted
  obtain ⟨final, same, further⟩ := Yields.bind further
  obtain ⟨_, -, made⟩ := Yields.bind further
  rw [← yields_pure.mp same] at made
  exact BuiltQuery.inRow_of_ofParts ((rendered fragment given).content.substituteSchemas (namedBy_of_isSchema schemas) substituted)
    made

/-! ### SELECT, UPDATE and DELETE -/

private theorem carries_ofNat (n : Nat) : Carries (numbered n) [n] := by
  have carries := Carries.of_slotted (.placeholder (Text.ofNat_ne_nil n) (fun _ => Text.isDigit_of_mem_ofNat) .nil .nil)
  rw [List.append_nil, Text.numeralValue_ofNat] at carries
  exact carries

namespace Statement.InRow

variable {statement : Statement Child}

theorem cte (inRow : statement.InRow) : ∀ cte ∈ statement.ctes, cte.Clean := by
  intro cte member
  refine ⟨inRow.names _ ?_, fun child given => inRow.children child ?_⟩
  · exact List.mem_append_left _ (List.mem_append_right _ (List.mem_map_of_mem member))
  · exact List.mem_append_left _ (List.mem_append_left _ (List.mem_filterMap.mpr ⟨cte, member, given⟩))

theorem join (inRow : statement.InRow) : ∀ join ∈ statement.joins, join.Clean := by
  intro join member
  refine ⟨fun name given => inRow.names name ?_, fun predicate given => inRow.predicates predicate ?_,
    fun child given => inRow.children child ?_⟩
  · exact List.mem_append_right _ (List.mem_flatMap.mpr ⟨join, member, given⟩)
  · exact List.mem_append_right _ (List.mem_filterMap.mpr ⟨join, member, given⟩)
  · exact List.mem_append_left _ (List.mem_append_right _ (List.mem_filterMap.mpr ⟨join, member, given⟩))

theorem ready (inRow : statement.InRow) : ∀ restriction ∈ statement.restrictions, restriction.Ready := by
  intro restriction member
  have inside : ∀ predicate ∈ restriction.predicates, predicate.Ready := fun predicate given =>
    inRow.predicates predicate (List.mem_append_left _ (List.mem_flatMap.mpr ⟨restriction, member, given⟩))
  cases restriction with
  | chain held => exact fun link given => inside _ (List.mem_map_of_mem given)
  | predicate p => exact inside p (by simp [Restriction.predicates])
  | unusable _ _ => trivial

theorem ownName (inRow : statement.InRow) {name : Value} (member : name ∈ statement.ownNames) : name.IsName :=
  inRow.names name (List.mem_append_left _ (List.mem_append_left _ member))

end Statement.InRow

namespace Select

variable {s : Select Child}

private theorem carries_selected (clean : ∀ field ∈ s.fields, field.IsClean) {texts : List Text}
    (done : s.selected = .ok texts) : ∀ text ∈ texts, Carries text [] := by
  unfold selected at done
  split at done
  · obtain rfl := Except.ok.inj done
    intro text member
    rw [List.mem_singleton.mp member]
    exact .of_plain rfl
  · exact Field.carries_renderAll clean done

private theorem carries_grouping (clean : ∀ field ∈ s.fields, field.IsClean) (names : ∀ group ∈ s.groups, group.IsName)
    {texts : List Text} (done : s.grouping = .ok texts) : ∀ text ∈ texts, Carries text [] := by
  obtain ⟨given, quoted, further⟩ := Outcome.bind_eq_ok.mp done
  have first := Identifier.carries_quoteColumns names quoted
  have shape : ∃ listed : List Text, (∀ text ∈ listed, Carries text []) ∧
      texts = (given ++ listed.filter fun (text : Text) => text != "*").eraseDups := by
    simp only at further
    split at further
    · obtain ⟨listed, chosen, same⟩ := Outcome.bind_eq_ok.mp further
      exact ⟨listed, carries_selected clean chosen, (Except.ok.inj same).symm⟩
    · exact ⟨[], by simp, (Except.ok.inj further).symm⟩
  obtain ⟨listed, columns, rfl⟩ := shape
  intro text member
  rcases List.mem_append.mp (List.mem_eraseDups.mp member) with near | far
  · exact first text near
  · exact columns text (List.mem_of_mem_filter far)

theorem render_inRow (inRow : (Statement.select s).InRow) {fragment : Fragment} (yields : s.render.Yields fragment) :
    fragment.text.Carries (row 1 fragment.values) := by
  obtain ⟨_, -, assembled⟩ := Yields.bind yields
  have ownName : ∀ name ∈ s.table :: s.name :: (s.groups ++ s.orders.map (·.field)), name.IsName := fun name member =>
    inRow.ownName member
  rw [List.cons_append, List.cons_append] at assembled
  refine Clause.assemble_inRow (Clause.with_inRow inRow.cte) ?_ assembled
  simp only [List.forall_mem_append, List.forall_mem_cons, List.forall_mem_map]
  refine ⟨⟨⟨Clause.plain_inRow ?_, Clause.plain_inRow ?_, by simp⟩, fun join member => Join.render_inRow (inRow.join join member)⟩,
    Clause.conditions_inRow rfl (inRow.ready _ (by simp [Statement.restrictions])), Clause.optional_inRow ?_,
    Clause.conditions_inRow rfl (inRow.ready _ (by simp [Statement.restrictions])), Clause.orderBy_inRow ?_,
    Clause.optional_inRow ?_, by simp⟩
  · intro written shown
    obtain ⟨texts, selected, same⟩ := Yields.bind shown
    rw [yields_lift] at selected
    rw [← yields_pure.mp same]
    have columns := Carries.join_nil ",\n " rfl rfl (carries_selected inRow.fields selected)
    simp only [List.append_assoc]
    split
    · exact (columns.literal "\n " rfl).literal _ rfl
    · exact (columns.literal "\n " rfl).literal _ rfl
  · intro written shown
    obtain ⟨table, quoted, further⟩ := Yields.bind shown
    obtain ⟨shortName, named, same⟩ := Yields.bind further
    rw [yields_lift] at quoted named
    rw [← yields_pure.mp same]
    rw [List.append_assoc]
    exact .literal _ rfl (carries_target rfl rfl (ownName _ (by simp)) (ownName _ (by simp)) quoted named)
  · intro written shown
    obtain ⟨groups, grouped, same⟩ := Yields.bind shown
    rw [yields_lift] at grouped
    replace same := yields_pure.mp same
    split at same
    · cases same
    · obtain rfl := Option.some.inj same
      exact .literal _ rfl (.join_nil ", " rfl rfl
        (carries_grouping inRow.fields (fun group member => ownName _ (by simp [member])) grouped))
  · intro order member
    exact ownName _ (by simp only [List.mem_cons, List.mem_append, List.mem_map]; exact .inr (.inr (.inr ⟨order, member, rfl⟩)))
  · intro written shown
    obtain ⟨lines, read, same⟩ := Yields.bind shown
    rw [yields_lift] at read
    replace same := yields_pure.mp same
    split at same
    · cases same
    · obtain rfl := Option.some.inj same
      exact .join_nil " " rfl rfl fun line member => Paging.carries_of_mem_render (Outcome.mem_of_mapM_id read member)

end Select

namespace Update

variable {s : Update Child}

/-- Assigned values take numbers in a row, and assigned expressions take none. -/
private theorem assign_carries {flavor : Flavor} {assignments : List (Value × Assigned)}
    (names : ∀ assignment ∈ assignments, assignment.1.IsName)
    (expressions : ∀ column expression, (column, .expression expression) ∈ assignments → expression.IsExpression) {start : Nat}
    {texts : List Text} {values : List Value} (done : assign flavor start assignments = .ok (texts, values)) :
    ∃ lists, List.Forall₂ Carries texts lists ∧ lists.flatten = row start values := by
  induction assignments generalizing start texts values with
  | nil =>
    cases done
    exact ⟨[], .nil, rfl⟩
  | cons assignment rest ih =>
    obtain ⟨column, assigned⟩ := assignment
    have further := fun {start} {texts} {values} => @ih (fun other member => names other (List.mem_cons_of_mem _ member))
      (fun column expression member => expressions column expression (List.mem_cons_of_mem _ member)) start texts values
    obtain ⟨quoted, named, done⟩ := Outcome.bind_eq_ok.mp done
    have left := Identifier.carries_quoteColumnValue (names (column, assigned) (by simp)) named
    cases assigned with
    | expression expression =>
      obtain ⟨written, shown, done⟩ := Outcome.bind_eq_ok.mp done
      obtain ⟨⟨texts', values'⟩, there, same⟩ := Outcome.bind_eq_ok.mp done
      cases same
      obtain ⟨lists, carries, flat⟩ := further there
      have right := (expressions column expression (by simp) written (.inr (.inr shown))).carries
      refine ⟨[] :: lists, .cons ?_ carries, by simpa using flat⟩
      rw [List.append_assoc]
      exact left.append (right.literal " = " rfl) (.of_head rfl _)
    | value value =>
      obtain ⟨_, -, done⟩ := Outcome.bind_eq_ok.mp done
      obtain ⟨⟨texts', values'⟩, there, same⟩ := Outcome.bind_eq_ok.mp done
      cases same
      obtain ⟨lists, carries, flat⟩ := @further (start + 1) _ _ there
      refine ⟨[start] :: lists, .cons ?_ carries, ?_⟩
      · rw [List.append_assoc]
        exact left.append ((carries_ofNat start).literal " = " rfl) (.of_head rfl _)
      · rw [List.flatten_cons, flat]
        exact List.range'_succ.symm

private theorem setClause_inRow (inRow : (Statement.update s).InRow) : s.setClause.InRow := by
  intro start _ numbered yields
  obtain ⟨⟨texts, values⟩, assigned, same⟩ := Yields.bind yields
  rw [yields_lift] at assigned
  obtain rfl := Option.some.inj (yields_pure.mp same)
  have names : ∀ assignment ∈ s.assignments, assignment.1.IsName := fun assignment member =>
    inRow.ownName (List.mem_cons_of_mem _ (List.mem_cons_of_mem _ (List.mem_append_left _ (List.mem_map_of_mem member))))
  have expressions : ∀ column expression, (column, .expression expression) ∈ s.assignments → expression.IsExpression :=
    fun column expression member => inRow.expressions expression (List.mem_filterMap.mpr ⟨_, member, rfl⟩)
  obtain ⟨lists, carries, flat⟩ := assign_carries names expressions assigned
  have whole := (Carries.join ", " rfl rfl carries).literal "SET " rfl
  rw [flat] at whole
  exact ⟨whole, by simp⟩

theorem render_inRow (inRow : (Statement.update s).InRow) {fragment : Fragment} (yields : s.render.Yields fragment) :
    fragment.text.Carries (row 1 fragment.values) := by
  obtain ⟨_, -, further⟩ := Yields.bind yields
  obtain ⟨_, -, further⟩ := Yields.bind further
  obtain ⟨_, -, assembled⟩ := Yields.bind further
  have origin : ∀ used ∈ s.origin, used.1.IsName ∧ used.2.IsName := fun used member =>
    ⟨inRow.ownName (by simp [Statement.ownNames, Option.mem_def.mp member]),
      inRow.ownName (by simp [Statement.ownNames, Option.mem_def.mp member])⟩
  rw [List.cons_append, List.cons_append] at assembled
  refine Clause.assemble_inRow (Clause.with_inRow inRow.cte) ?_ assembled
  simp only [List.forall_mem_append, List.forall_mem_cons, List.forall_mem_map]
  refine ⟨⟨⟨Clause.plain_inRow ?_, setClause_inRow inRow, Clause.optional_inRow ?_, by simp⟩,
    fun join member => Join.render_inRow (inRow.join join member)⟩,
    Clause.conditions_inRow rfl (inRow.ready _ (by simp [Statement.restrictions])), Clause.returning_inRow inRow.fields, by simp⟩
  · intro written shown
    obtain ⟨table, quoted, further⟩ := Yields.bind shown
    obtain ⟨shortName, named, same⟩ := Yields.bind further
    rw [yields_lift] at quoted named
    rw [← yields_pure.mp same, List.append_assoc]
    exact .literal _ rfl (carries_target rfl rfl (inRow.ownName (by simp [Statement.ownNames]))
      (inRow.ownName (by simp [Statement.ownNames])) quoted named)
  · intro written shown
    unfold fromClause at shown
    cases given : s.origin with
    | none =>
      rw [given] at shown
      cases yields_pure.mp shown
    | some used =>
      obtain ⟨table, name⟩ := used
      rw [given] at shown
      obtain ⟨quotedTable, quoted, further⟩ := Yields.bind shown
      obtain ⟨shortName, named, same⟩ := Yields.bind further
      rw [yields_lift] at quoted named
      obtain rfl := Option.some.inj (yields_pure.mp same)
      rw [List.append_assoc]
      exact .literal _ rfl (carries_target rfl rfl (origin _ given).1 (origin _ given).2 quoted named)

end Update

namespace Delete

variable {s : Delete Child}

theorem render_inRow (inRow : (Statement.delete s).InRow) {fragment : Fragment} (yields : s.render.Yields fragment) :
    fragment.text.Carries (row 1 fragment.values) := by
  obtain ⟨_, -, assembled⟩ := Yields.bind yields
  have others : ∀ used ∈ s.others, used.1.IsName ∧ used.2.IsName := by
    intro used member
    have inside : ∀ name ∈ [used.1, used.2], name ∈ s.others.flatMap fun used => [used.1, used.2] := fun name given =>
      List.mem_flatMap.mpr ⟨used, member, given⟩
    exact ⟨inRow.ownName (List.mem_cons_of_mem _ (List.mem_cons_of_mem _ (inside _ (by simp)))),
      inRow.ownName (List.mem_cons_of_mem _ (List.mem_cons_of_mem _ (inside _ (by simp))))⟩
  refine Clause.assemble_inRow (Clause.with_inRow inRow.cte) ?_ assembled
  simp only [List.forall_mem_cons]
  refine ⟨Clause.plain_inRow ?_, Clause.optional_inRow ?_,
    Clause.conditions_inRow rfl (inRow.ready _ (by simp [Statement.restrictions])), Clause.returning_inRow inRow.fields, by simp⟩
  · intro written shown
    obtain ⟨table, quoted, further⟩ := Yields.bind shown
    obtain ⟨shortName, called, same⟩ := Yields.bind further
    rw [yields_lift] at quoted called
    rw [← yields_pure.mp same, List.append_assoc]
    exact .literal _ rfl (carries_target rfl rfl (inRow.ownName (by simp [Statement.ownNames]))
      (inRow.ownName (by simp [Statement.ownNames])) quoted called)
  · intro written shown
    unfold othersClause at shown
    split at shown
    · cases yields_pure.mp shown
    · obtain ⟨texts, used, same⟩ := Yields.bind shown
      rw [yields_lift] at used
      obtain rfl := Option.some.inj (yields_pure.mp same)
      refine .literal _ rfl (.join_nil ", " rfl rfl (Outcome.forall_of_mapM used fun other member text done => ?_))
      obtain ⟨table, quoted, further⟩ := Outcome.bind_eq_ok.mp done
      obtain ⟨shortName, called, same⟩ := Outcome.bind_eq_ok.mp further
      obtain rfl := Except.ok.inj same
      exact carries_target rfl rfl (others other member).1 (others other member).2 quoted called

end Delete

/-! ### INSERT -/

namespace Insert

variable {s : Insert Child}

private theorem carries_placeholders (start count : Nat) :
    List.Forall₂ Carries ((numbersFrom start count).map numbered) ((List.range' start count).map fun n => [n]) := by
  induction count generalizing start with
  | zero => exact .nil
  | succ count ih =>
    rw [numbersFrom, List.map_cons, List.range'_succ, List.map_cons]
    exact .cons (carries_ofNat start) (ih (start + 1))

private theorem rowClause_inRow (inRow : (Statement.insert s).InRow) : s.rowClause.InRow := by
  intro start _ numbered yields
  obtain ⟨target, quoted, further⟩ := Yields.bind yields
  obtain ⟨columns, named, further⟩ := Yields.bind further
  obtain ⟨_, -, same⟩ := Yields.bind further
  rw [yields_lift] at quoted named
  obtain rfl := Option.some.inj (yields_pure.mp same)
  have table := Identifier.carries_quoteTableValue (inRow.ownName (by simp [Statement.ownNames])) quoted
  have listed := Carries.join_nil ", " rfl rfl (Identifier.carries_quoteColumns (fun reference member =>
    inRow.ownName (List.mem_cons_of_mem _ (List.mem_append_left _ member))) named)
  have bound := Carries.join ", " rfl rfl (carries_placeholders start s.rows.length)
  rw [← List.flatMap_def, List.flatMap_singleton'] at bound
  refine ⟨?_, by simp⟩
  rw [row, List.length_map]
  simp only [List.append_assoc]
  have tail := listed.append ((bound.behind ")" rfl rfl).literal ") VALUES (" rfl) (.of_head rfl _)
  exact .literal _ rfl (table.append (tail.literal " (" rfl) (.of_head rfl _))

private theorem carries_targetColumns (inRow : (Statement.insert s).InRow) {source : Child} (child : source.InRow)
    {columns : List Text} (done : s.targetColumns source = .ok columns) : ∀ column ∈ columns, Carries column [] := by
  unfold targetColumns at done
  simp only at done
  split at done
  · obtain ⟨given, known, further⟩ := Outcome.bind_eq_ok.mp done
    exact Outcome.forall_of_mapM further fun column member text quoted =>
      OutputColumn.carries_targetColumn (child.columns given known column member) quoted
  · exact Identifier.carries_quoteColumns (fun reference member =>
      inRow.ownName (List.mem_cons_of_mem _ (List.mem_append_right _ member))) done

private theorem sourceClause_inRow (inRow : (Statement.insert s).InRow) {source : Child} (child : source.InRow) :
    (s.sourceClause source).InRow := by
  intro start positive numbered yields
  obtain ⟨target, quoted, further⟩ := Yields.bind yields
  obtain ⟨columns, named, further⟩ := Yields.bind further
  obtain ⟨built, finished, further⟩ := Yields.bind further
  obtain ⟨fragment, read, further⟩ := Yields.bind further
  obtain ⟨inner, renumbered, same⟩ := Yields.bind further
  rw [yields_lift] at quoted named read renumbered
  obtain rfl := Option.some.inj (yields_pure.mp same)
  have table := Identifier.carries_quoteTableValue (inRow.ownName (by simp [Statement.ownNames])) quoted
  have carries := BuiltQuery.toFragment_carries (child.build built finished) read
  obtain ⟨placed, next⟩ := Fragment.renumber_carries carries positive renumbered
  have body := placed.printed.literal "\n" rfl
  refine ⟨?_, next⟩
  simp only [List.append_assoc]
  split
  · rw [List.nil_append]
    exact .literal _ rfl (table.append body (.of_head rfl _))
  · have listed := Carries.join_nil ", " rfl rfl (carries_targetColumns inRow child named)
    have tail := listed.append (body.literal ")" rfl) (.of_head rfl _)
    simp only [List.append_assoc]
    exact .literal _ rfl (table.append (tail.literal " (" rfl) (.of_head rfl _))

theorem render_inRow (inRow : (Statement.insert s).InRow) {fragment : Fragment} (yields : s.render.Yields fragment) :
    fragment.text.Carries (row 1 fragment.values) := by
  obtain ⟨_, -, further⟩ := Yields.bind yields
  have finish : ∀ {body : Clause}, body.InRow →
      (Clause.assemble [.with s.ctes, body, .returning s.settings.flavor s.returning]).Yields fragment →
      fragment.text.Carries (row 1 fragment.values) := by
    intro body inside assembled
    refine Clause.assemble_inRow (Clause.with_inRow inRow.cte) ?_ assembled
    simp only [List.forall_mem_cons]
    exact ⟨inside, Clause.returning_inRow inRow.fields, by simp⟩
  simp only at further
  split at further
  · obtain ⟨body, failed, -⟩ := Yields.bind further
    obtain ⟨_, -, thrown⟩ := Yields.bind failed
    exact absurd thrown not_yields_throw
  · next source _ given =>
    obtain ⟨body, chosen, assembled⟩ := Yields.bind further
    have child : source.InRow := inRow.children source (List.mem_append_right _ (by simp [given]))
    rw [← yields_pure.mp chosen] at assembled
    exact finish (sourceClause_inRow inRow child) assembled
  · obtain ⟨body, chosen, assembled⟩ := Yields.bind further
    rw [← yields_pure.mp chosen] at assembled
    exact finish (rowClause_inRow inRow) assembled

end Insert

/-! ### Compound statements -/

namespace Compound

variable {s : Compound Child}

private theorem carries_laterMembers {wrap : Text → Text}
    (wrapped : ∀ operator : SetOperator, Carries (wrap (Keyword.word operator)) []) {written : Wording → Text}
    (within : ∀ text numbers, Wording.Carries text numbers → Carries (written text) numbers) {texts : List Wording}
    {lists : List (List Nat)} (all : List.Forall₂ Wording.Carries texts lists) {operators : List SetOperator}
    (length : texts.length = operators.length) :
    Carries ((texts.zip operators).flatMap fun (text, operator) => laterMember wrap (written text) operator) lists.flatten ∧
      Text.BeginsOutside Text.isDigit
        ((texts.zip operators).flatMap fun (text, operator) => laterMember wrap (written text) operator) := by
  induction all generalizing operators with
  | nil => exact ⟨.nil, .nil⟩
  | @cons text list texts lists here _ ih =>
    cases operators with
    | nil => cases length
    | cons operator operators =>
      obtain ⟨others, begin⟩ := @ih operators (Nat.succ.inj length)
      rw [List.zip_cons_cons, List.flatMap_cons, List.flatten_cons]
      have inner := (within text list here).append others begin
      change Carries (laterMember wrap (written text) operator ++ _) _ ∧
        Text.BeginsOutside _ (laterMember wrap (written text) operator ++ _)
      rw [laterMember, List.append_assoc, List.append_assoc, List.append_assoc]
      exact ⟨.literal _ rfl ((wrapped operator).append (inner.literal "\n\n" rfl) (.of_head rfl _)), .of_head rfl _⟩

theorem carries_joinMembers {wrapped : Bool} {texts : List Wording} {lists : List (List Nat)}
    (all : List.Forall₂ Wording.Carries texts lists) {operators : List SetOperator} (length : texts.length = operators.length) :
    Carries (joinMembers wrapped texts operators) lists.flatten := by
  have word : ∀ operator : SetOperator, Carries (Keyword.word operator) [] := by
    intro operator
    cases operator <;> exact .of_plain rfl
  cases all with
  | nil => exact .nil
  | @cons first list rest lists here there =>
    have tail : rest.length = operators.tail.length := by
      rw [List.length_tail, ← length, List.length_cons]
      rfl
    cases wrapped with
    | true =>
      have within : ∀ (text : Wording) numbers, text.Carries numbers →
          Carries (Text.indent 1 ("(" ++ text.printed ++ ")")) numbers := by
        intro text numbers carries
        rw [List.append_assoc]
        exact ((carries.printed.behind ")" rfl rfl).literal "(" rfl).indent 1
      obtain ⟨others, begin⟩ := carries_laterMembers (fun operator => (word operator).indent 1) within there tail
      exact (within first list here).append others begin
    | false =>
      obtain ⟨others, begin⟩ := @carries_laterMembers id word _ (fun text numbers carries => carries.printed) _ _ there _ tail
      exact here.content.append others begin

/-- The members are numbered in a row, one after another. -/
private theorem renderMembers_inRow (members : ∀ member ∈ s.members, member.query.InRow) {start : Nat} (positive : 1 ≤ start)
    {merged : Fragment.Merged} (yields : (s.renderMembers start).Yields merged) (wrapped : Bool) :
    Carries (joinMembers wrapped merged.texts s.operators) (row start merged.values) ∧
      merged.next = (start + merged.values.length : Nat) := by
  obtain ⟨_, -, further⟩ := Yields.bind yields
  obtain ⟨built, finished, numbered⟩ := Yields.bind further
  rw [yields_lift] at numbered
  have sound : ∀ part ∈ built, ∀ fragment, part.toFragment = .ok fragment →
      fragment.text.Carries (row 1 fragment.values) := by
    intro part inside fragment read
    obtain ⟨member, given, done⟩ := exists_of_mem_mapM finished inside
    exact BuiltQuery.toFragment_carries ((members member given).build part done) read
  obtain ⟨⟨lists, carries, flat⟩, next⟩ := Fragment.mergeFrom_inRow sound positive numbered
  have length : merged.texts.length = s.operators.length := by
    rw [Fragment.length_of_mergeFrom numbered, ← finished.mapM.length_eq, operators, List.length_map]
  rw [← flat]
  exact ⟨carries_joinMembers carries length, next⟩

private theorem members_inRow (inRow : (Statement.compound s).InRow) : ∀ member ∈ s.members, member.query.InRow :=
  fun member given => inRow.children member.query (List.mem_append_right _ (List.mem_map_of_mem given))

private theorem carries_opening (inRow : (Statement.compound s).InRow) {opening : Text} (done : s.opening = .ok opening) :
    Carries opening [] := by
  unfold Compound.opening at done
  split at done
  · obtain rfl := Except.ok.inj done
    exact .of_plain rfl
  · obtain ⟨fields, rendered, rfl⟩ := Outcome.map_eq_ok.mp done
    have columns := Carries.join_nil ",\n " rfl rfl (Field.carries_renderAll inRow.fields rendered)
    rw [List.append_assoc]
    exact .literal _ rfl (columns.behind "\n FROM (" rfl rfl)

private theorem tableClause_inRow (inRow : (Statement.compound s).InRow) : s.tableClause.InRow := by
  intro start positive numbered yields
  obtain ⟨merged, placed, further⟩ := Yields.bind yields
  obtain ⟨opening, opened, further⟩ := Yields.bind further
  obtain ⟨name, shown, same⟩ := Yields.bind further
  rw [yields_lift] at opened shown
  obtain rfl := Option.some.inj (yields_pure.mp same)
  obtain ⟨body, next⟩ := renderMembers_inRow (members_inRow inRow) positive placed true
  have isName : s.name.IsName := inRow.ownName (by simp [Statement.ownNames])
  have behind := body.append ((isName name (.inr (.inr shown))).carries.literal "\n) AS " rfl) (.of_head rfl _)
  rw [List.append_nil] at behind
  refine ⟨?_, next⟩
  simp only [List.append_assoc]
  exact (carries_opening inRow opened).append (behind.literal "\n" rfl) (.of_head rfl _)

theorem render_inRow (inRow : (Statement.compound s).InRow) {fragment : Fragment} (yields : s.render.Yields fragment) :
    fragment.text.Carries (row 1 fragment.values) := by
  obtain ⟨_, -, further⟩ := Yields.bind yields
  obtain ⟨_, -, assembled⟩ := Yields.bind further
  have ownName : ∀ name ∈ s.name :: (s.groups ++ s.orders.map (·.field)), name.IsName := fun name member =>
    inRow.ownName member
  rw [List.cons_append] at assembled
  refine Clause.assemble_inRow (Clause.with_inRow inRow.cte) ?_ assembled
  simp only [List.forall_mem_append, List.forall_mem_cons, List.forall_mem_map]
  refine ⟨⟨tableClause_inRow inRow, Clause.conditions_inRow rfl (inRow.ready _ (by simp [Statement.restrictions])),
    Clause.optional_inRow ?_, Clause.conditions_inRow rfl (inRow.ready _ (by simp [Statement.restrictions])),
    Clause.orderBy_inRow ?_, by simp⟩, ?_⟩
  · intro written shown
    unfold groupClause at shown
    split at shown
    · cases yields_pure.mp shown
    · obtain ⟨groups, quoted, same⟩ := Yields.bind shown
      rw [yields_lift] at quoted
      obtain rfl := Option.some.inj (yields_pure.mp same)
      exact .literal _ rfl (.join_nil ", " rfl rfl (Identifier.carries_quoteColumns (fun group member =>
        ownName _ (by simp [member])) quoted))
  · intro order member
    exact ownName _ (by simp only [List.mem_cons, List.mem_append, List.mem_map]; exact .inr (.inr ⟨order, member, rfl⟩))
  · intro line member
    refine Clause.plain_inRow fun written shown => ?_
    obtain rfl := yields_lift.mp shown
    exact Paging.carries_of_mem_render member

theorem buildMembers_inRow (inRow : (Statement.compound s).InRow) {built : BuiltQuery}
    (yields : s.buildMembers.Yields built) : built.InRow := by
  obtain ⟨head, first, further⟩ := Yields.bind yields
  obtain ⟨merged, placed, further⟩ := Yields.bind further
  have opening := Clause.with_inRow inRow.cte
  have schemas := namedBy_of_isSchema (inRow.schemas s.settings rfl)
  cases head with
  | none =>
    obtain ⟨text, substituted, made⟩ := Yields.bind further
    rw [yields_lift] at substituted
    obtain ⟨body, -⟩ := renderMembers_inRow (members_inRow inRow) (Nat.le_refl 1) placed false
    exact BuiltQuery.inRow_of_ofParts (body.substituteSchemas schemas substituted) made
  | some head =>
    obtain ⟨text, substituted, made⟩ := Yields.bind further
    rw [yields_lift] at substituted
    have inside := opening head first
    simp only [Option.map_some, Option.getD_some] at placed
    rw [inside.next] at placed
    obtain ⟨body, -⟩ := renderMembers_inRow (members_inRow inRow) (Nat.le_add_right 1 _) placed false
    have whole := inside.carries.append (body.literal "\n" rfl) (.of_head rfl _)
    rw [← List.append_assoc, ← row_append] at whole
    exact BuiltQuery.inRow_of_ofParts (whole.substituteSchemas schemas substituted) made

end Compound

/-- A statement made of clean things is numbered in a row, whatever its kind. -/
theorem Statement.build_inRow {statement : Statement Child} (inRow : statement.InRow) {deep : Option Bool} {built : BuiltQuery}
    (yields : (statement.build (some false) deep).Yields built) : built.InRow := by
  cases statement with
  | built query =>
    rw [← yields_pure.mp yields]
    exact inRow.leaf query rfl
  | select s =>
    exact Settings.finish_inRow (inRow.schemas _ rfl) (fun fragment => Select.render_inRow inRow) yields
  | compound s =>
    exact Settings.finish_inRow (inRow.schemas _ rfl) (fun fragment => Compound.render_inRow inRow) yields
  | insert s =>
    exact Settings.finish_inRow (inRow.schemas _ rfl) (fun fragment => Insert.render_inRow inRow) yields
  | update s =>
    exact Settings.finish_inRow (inRow.schemas _ rfl) (fun fragment => Update.render_inRow inRow) yields
  | delete s =>
    exact Settings.finish_inRow (inRow.schemas _ rfl) (fun fragment => Delete.render_inRow inRow) yields
  | unbuildable => exact absurd yields not_yields_throw

end SqlCompose
