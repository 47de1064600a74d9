import Mathlib
import SqlCompose.Proofs.ClauseNumbers
import SqlCompose.Proofs.StatementParts

/-!
# Numbers through a whole statement

A statement over children is numbered in a row if what it is made of is clean: its names, its expressions and its schemas carry no numbers, its predicates await as many values as they have, and its children are in a row themselves. `Statement.build_inRow` goes through the kinds.
-/

namespace SqlCompose

open Token Build

/-! ### Sequences of clauses -/

namespace Clause

/-- From a start the clause is numbered in a row, if it is there. -/
def InRowFrom (clause : Clause) (start : Nat) : Prop :=
  ∀ numbered, Yields (clause start) (some numbered) → numbered.InRow start

/-- From every start the clause is numbered in a row. -/
def InRow (clause : Clause) : Prop :=
  ∀ start, 1 ≤ start → clause.InRowFrom start

theorem plain_inRow {text : Build Text} (carries : ∀ written, text.Yields written → Carries written []) :
    (plain text).InRow := by
  intro start _ numbered yields
  obtain ⟨written, shown, same⟩ := Yields.bind yields
  rw [yields_pure] at same
  obtain rfl := Option.some.inj same
  exact ⟨carries written shown, by simp⟩

theorem optional_inRow {text : Build (Option Text)} (carries : ∀ written, text.Yields (some written) → Carries written []) :
    (optional text).InRow := by
  intro start _ numbered yields
  obtain ⟨written, shown, same⟩ := Yields.bind yields
  rw [yields_pure] at same
  obtain ⟨written, rfl, rfl⟩ := Option.map_eq_some_iff.mp same
  exact ⟨carries written shown, by simp⟩

theorem sequence_inRow {clauses : List Clause} {start : Nat} (positive : 1 ≤ start)
    (first : ∀ clause ∈ clauses.head?, clause.InRowFrom start) (others : ∀ clause ∈ clauses.tail, clause.InRow)
    {texts : List Text} {values : List Value} (yields : (sequence start clauses).Yields (texts, values)) :
    ∃ lists, List.Forall₂ Carries texts lists ∧ lists.flatten = row start values := by
  induction clauses generalizing start texts values with
  | nil =>
    rw [sequence, yields_pure] at yields
    cases yields
    exact ⟨[], .nil, rfl⟩
  | cons clause rest ih =>
    have further : ∀ clause ∈ rest.tail, clause.InRow := fun clause member => others clause (List.mem_of_mem_tail member)
    have next : ∀ start, 1 ≤ start → ∀ clause ∈ rest.head?, clause.InRowFrom start := fun start positive clause member =>
      others clause (List.mem_of_mem_head? member) start positive
    obtain ⟨outcome, here, there⟩ := Yields.bind yields
    cases outcome with
    | none => exact ih positive (next start positive) further there
    | some numbered =>
      have inRow := first clause (by simp) numbered here
      obtain ⟨⟨texts', values'⟩, after, same⟩ := Yields.bind there
      rw [yields_pure] at same
      cases same
      rw [inRow.next] at after
      have later : 1 ≤ start + numbered.values.length := by omega
      obtain ⟨lists, carries, flat⟩ := ih later (next _ later) further after
      exact ⟨row start numbered.values :: lists, .cons inRow.carries carries, by
        rw [List.flatten_cons, flat, row_append]⟩

/-- A statement whose clauses are numbered in a row is numbered in a row. -/
theorem assemble_inRow {clause : Clause} {clauses : List Clause} (first : clause.InRowFrom 1)
    (others : ∀ clause ∈ clauses, clause.InRow) {fragment : Fragment}
    (yields : (assemble (clause :: clauses)).Yields fragment) : fragment.text.Carries (row 1 fragment.values) := by
  obtain ⟨⟨texts, values⟩, sequenced, same⟩ := Yields.bind yields
  rw [yields_pure] at same
  rw [← same]
  have start : ∀ head ∈ (clause :: clauses).head?, head.InRowFrom 1 := by
    intro head member
    obtain rfl := Option.some.inj member
    exact first
  obtain ⟨lists, carries, flat⟩ := sequence_inRow (Nat.le_refl 1) start others sequenced
  have whole := Carries.join "\n" rfl rfl carries
  rw [flat] at whole
  exact Wording.carries_plain whole

/-! ### Conditions, column lists, order and paging -/

theorem conditions_inRow {keyword : Text} (ordinary : keyword.all isPlain = true) {restriction : Restriction}
    (ready : restriction.Ready) : (conditions keyword restriction).InRow := by
  intro start _ numbered yields
  obtain ⟨rendered, shown, further⟩ := Yields.bind yields
  have inRow := Restriction.render_inRow ready shown
  split at further
  · rw [yields_pure] at further
    cases further
  · rw [yields_pure] at further
    obtain rfl := Option.some.inj further
    refine ⟨?_, inRow.next⟩
    change Carries (keyword ++ " " ++ rendered.text) _
    rw [List.append_assoc]
    exact .literal keyword ordinary (.literal " " rfl inRow.carries)

end Clause

/-- A reference is a name, and an expression is one. -/
def Field.IsClean (field : Field) : Prop :=
  if field.raw then field.value.IsExpression else field.value.IsName

theorem Field.IsClean.isExpression {field : Field} (clean : field.IsClean) : field.value.IsExpression := by
  unfold IsClean at clean
  split at clean
  · exact clean
  · exact clean.isExpression

theorem Field.carries_renderAll {flavor : Flavor} {fields : List Field} (clean : ∀ field ∈ fields, field.IsClean)
    {texts : List Text} (done : renderAll flavor fields = .ok texts) : ∀ text ∈ texts, Carries text [] := by
  obtain ⟨values, rendered, written⟩ := Outcome.bind_eq_ok.mp done
  have carries : ∀ value ∈ values, ∀ text, value.asText = .ok text → Carries text [] := by
    refine Outcome.forall_of_mapM rendered fun field member value here text shown => ?_
    have own := clean field member
    unfold Field.IsClean at own
    unfold Field.render at here
    by_cases raw : field.raw = true
    · rw [if_pos raw] at own here
      obtain rfl := Except.ok.inj here
      exact (own text (.inr (.inl shown))).carries
    · rw [if_neg raw] at own here
      obtain ⟨quoted, column, rfl⟩ := Outcome.map_eq_ok.mp here
      obtain rfl := Except.ok.inj shown
      exact Identifier.carries_quoteColumnValue own column
  exact Outcome.forall_of_mapM written carries

theorem OrderBy.carries_renderAll {flavor : Flavor} {orders : List OrderBy} (names : ∀ order ∈ orders, order.field.IsName)
    {texts : List Text} (done : renderAll flavor orders = .ok texts) : ∀ text ∈ texts, Carries text [] := by
  refine Outcome.forall_of_mapM done fun order member text here => ?_
  obtain ⟨column, quoted, rfl⟩ := Outcome.map_eq_ok.mp here
  have carries := Identifier.carries_quoteColumnValue (names order member) quoted
  rw [List.append_assoc]
  cases order.direction with
  | ascending => exact carries.behind _ rfl rfl
  | descending => exact carries.behind _ rfl rfl

namespace Clause

theorem returning_inRow {flavor : Flavor} {fields : List Field} (clean : ∀ field ∈ fields, field.IsClean) :
    (returning flavor fields).InRow := by
  refine optional_inRow ?_
  intro written yields
  split at yields
  · rw [yields_pure] at yields
    cases yields
  · obtain ⟨texts, rendered, same⟩ := Yields.bind yields
    rw [yields_lift] at rendered
    rw [yields_pure] at same
    obtain rfl := Option.some.inj same
    exact .literal _ rfl (.join_nil ", " rfl rfl (Field.carries_renderAll clean rendered))

theorem orderBy_inRow {flavor : Flavor} {orders : List OrderBy} (names : ∀ order ∈ orders, order.field.IsName) :
    (orderBy flavor orders).InRow := by
  refine optional_inRow ?_
  intro written yields
  split at yields
  · rw [yields_pure] at yields
    cases yields
  · obtain ⟨texts, rendered, same⟩ := Yields.bind yields
    rw [yields_lift] at rendered
    rw [yields_pure] at same
    obtain rfl := Option.some.inj same
    exact .literal _ rfl (.join_nil ", " rfl rfl (OrderBy.carries_renderAll names rendered))

end Clause

theorem Paging.carries_of_mem_render {paging : Paging} {line : Text} (member : .ok line ∈ paging.render) : Carries line [] := by
  have digits : ∀ n : Nat, Carries (Text.ofNat n) [] := fun n =>
    .of_plain (List.all_eq_true.mpr fun c inside => isPlain_of_isDigit (Text.isDigit_of_mem_ofNat inside))
  obtain ⟨n, rfl | rfl⟩ := eq_of_mem_render member
  · exact .literal _ rfl (digits n)
  · exact .literal _ rfl (digits n)

/-- A table, and its alias behind an opening if it has one. -/
theorem carries_target {opening : Text} (ordinary : opening.all isPlain = true)
    (first : opening.head?.map Text.isDigit = some false) {flavor : Flavor} {reference name : Value}
    (isTable : reference.IsName) (isName : name.IsName) {table shortName : Text}
    (quoted : Identifier.quoteTableValue flavor reference = .ok table)
    (written : SqlCompose.behind opening name = .ok shortName) : Carries (table ++ shortName) [] := by
  have carries := Identifier.carries_quoteTableValue isTable quoted
  unfold SqlCompose.behind at written
  split at written
  · obtain ⟨printed, shown, rfl⟩ := Outcome.map_eq_ok.mp written
    exact carries.append ((isName printed (.inr (.inr shown))).carries.literal opening ordinary) (.of_head first printed)
  · obtain rfl := Except.ok.inj written
    rw [List.append_nil]
    exact carries

/-! ### Common table expressions -/

/-- A child whose finished text is in a row, and whose columns are expressions. -/
structure Child.InRow (child : Child) : Prop where
  build : ∀ built, child.build.Yields built → built.InRow
  columns : ∀ columns, child.columns = .ok columns → ∀ column ∈ columns, column.IsExpression

namespace Cte

theorem build_inRow {cte : Cte Child} (isName : cte.name.IsName) (child : ∀ child ∈ cte.query, child.InRow)
    {built : BuiltQuery} (yields : cte.build.Yields built) : built.InRow := by
  obtain ⟨_, -, further⟩ := Yields.bind yields
  cases given : cte.query with
  | none =>
    rw [given] at further
    obtain ⟨name, -, failed⟩ := Yields.bind further
    obtain ⟨_, -, thrown⟩ := Yields.bind failed
    exact absurd thrown not_yields_throw
  | some query =>
    rw [given] at further
    obtain ⟨inner, finished, further⟩ := Yields.bind further
    obtain ⟨name, named, further⟩ := Yields.bind further
    obtain ⟨text, printed, made⟩ := Yields.bind further
    rw [yields_lift] at named printed
    refine BuiltQuery.inRow_of_ofParts ?_ made
    have carries := ((child query given).build inner finished).carries (.inr (.inr printed))
    have body := (isName name (.inr (.inr named))).carries.append
      ((carries.behind "\n)" rfl rfl).literal " AS (\n" rfl) (.of_head rfl _)
    simp only [List.append_assoc]
    split
    · exact body.literal _ rfl
    · exact body.literal _ rfl

/-- The expressions of a statement, all clean. -/
def Clean (cte : Cte Child) : Prop :=
  cte.name.IsName ∧ ∀ child ∈ cte.query, child.InRow

theorem buildAll_inRow {ctes : List (Cte Child)} (clean : ∀ cte ∈ ctes, cte.Clean) {built : BuiltQuery}
    (yields : (buildAll ctes).Yields built) : built.InRow := by
  unfold buildAll at yields
  split at yields
  · exact BuiltQuery.inRow_of_ofParts .nil yields
  · obtain ⟨parts, all, further⟩ := Yields.bind yields
    obtain ⟨merged, numbered, further⟩ := Yields.bind further
    obtain ⟨_, -, made⟩ := Yields.bind further
    rw [yields_lift] at numbered
    have sound : ∀ part ∈ parts, ∀ fragment, part.toFragment = .ok fragment →
        fragment.text.Carries (row 1 fragment.values) := by
      intro part member fragment read
      obtain ⟨cte, inside, finished⟩ := exists_of_mem_mapM all member
      exact BuiltQuery.toFragment_carries (build_inRow (clean cte inside).1 (clean cte inside).2 finished) read
    obtain ⟨⟨lists, carries, flat⟩, -⟩ := Fragment.mergeFrom_inRow sound (Nat.le_refl 1) numbered
    refine BuiltQuery.inRow_of_ofParts ?_ made
    have contents : List.Forall₂ Carries (merged.texts.map Wording.content) lists :=
      List.forall₂_map_left_iff.mpr (carries.imp fun _ _ both => both.content)
    have whole := Carries.join ", " rfl rfl contents
    rw [flat] at whole
    exact whole.literal _ rfl

end Cte

/-- The `WITH` clause comes first, so it is only ever numbered from one. -/
theorem Clause.with_inRow {ctes : Option (List (Cte Child))} (clean : ∀ cte ∈ ctes.getD [], cte.Clean) :
    (Clause.with ctes).InRowFrom 1 := by
  intro numbered yields
  cases ctes with
  | none =>
    rw [Clause.with, yields_pure] at yields
    cases yields
  | some ctes =>
    obtain ⟨built, all, further⟩ := Yields.bind yields
    obtain ⟨wording, read, further⟩ := Yields.bind further
    rw [yields_lift] at read
    have fragment : built.toFragment = .ok ⟨wording, built.values⟩ := by
      rw [BuiltQuery.toFragment, read]
      rfl
    have carries := BuiltQuery.toFragment_carries (Cte.buildAll_inRow clean all) fragment
    simp only at further
    split at further
    · rw [yields_pure] at further
      cases further
    · rw [yields_pure] at further
      obtain rfl := Option.some.inj further
      exact ⟨carries.content, by simp⟩

/-! ### Joins -/

namespace Join

variable {Q : Type}

/-- A join with clean names, a ready condition, and a statement that is in a row. -/
structure Clean (join : Join Child) : Prop where
  names : ∀ name ∈ join.names, name.IsName
  condition : ∀ predicate ∈ join.condition, predicate.Ready
  child : ∀ child ∈ join.child?, child.InRow

private theorem renderSource_inRow {flavor : Flavor} {source : JoinSource Child} {kind : JoinKind} {condition : Option Predicate}
    (clean : (Join.mk kind source condition).Clean) {start : Nat} (positive : 1 ≤ start) {numbered : Numbered}
    (yields : (renderSource flavor source start).Yields numbered) : numbered.InRow start := by
  cases source with
  | table reference name =>
    obtain ⟨table, quoted, further⟩ := Yields.bind yields
    obtain ⟨shortName, written, same⟩ := Yields.bind further
    rw [yields_lift] at quoted written
    rw [yields_pure] at same
    rw [← same]
    exact ⟨carries_target rfl rfl (clean.names _ (by simp [names])) (clean.names _ (by simp [names])) quoted written, by simp⟩
  | subquery query name =>
    obtain ⟨built, finished, further⟩ := Yields.bind yields
    obtain ⟨fragment, read, further⟩ := Yields.bind further
    obtain ⟨inner, renumbered, further⟩ := Yields.bind further
    obtain ⟨shortName, written, same⟩ := Yields.bind further
    rw [yields_lift] at read renumbered written
    rw [yields_pure] at same
    rw [← same]
    have carries := BuiltQuery.toFragment_carries ((clean.child query rfl).build built finished) read
    obtain ⟨placed, next⟩ := Fragment.renumber_carries carries positive renumbered
    have called := (clean.names name (by simp [names]) shortName (.inr (.inr written))).carries
    refine ⟨?_, next⟩
    have whole := (placed.content.indent 1).append (called.literal "\n) " rfl) (.of_head rfl _)
    rw [List.append_nil] at whole
    simp only [List.append_assoc]
    exact whole.literal _ rfl

theorem render_inRow {flavor : Flavor} {join : Join Child} (clean : join.Clean) : Clause.InRow (render flavor join) := by
  intro start positive numbered yields
  obtain ⟨kind, source, condition⟩ := join
  obtain ⟨rendered, shown, further⟩ := Yields.bind yields
  have inRow := renderSource_inRow clean positive shown
  have head : Carries (Keyword.word kind ++ " JOIN " ++ rendered.text) (row start rendered.values) := by
    rw [List.append_assoc]
    have behind := inRow.carries.literal " JOIN " rfl
    cases kind <;> exact behind.literal _ rfl
  cases condition with
  | none =>
    simp only at further
    rw [yields_pure] at further
    obtain rfl := Option.some.inj further
    exact ⟨head, inRow.next⟩
  | some predicate =>
    simp only at further
    obtain ⟨condition, conditioned, further⟩ := Yields.bind further
    rw [yields_lift, inRow.next] at conditioned
    obtain rfl := Option.some.inj (yields_pure.mp further)
    have joined := Predicate.render_inRow (clean.condition predicate rfl) conditioned
    refine ⟨?_, ?_⟩
    · rw [row_append, List.append_assoc]
      exact head.append (joined.carries.literal "\n ON " rfl) (.of_head rfl _)
    · rw [joined.next, List.length_append, Nat.add_assoc]

end Join

end SqlCompose
