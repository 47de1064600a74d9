import Mathlib
import SqlCompose.Proofs.QuotedNames
import SqlCompose.Proofs.SpannedNumbers

/-!
# Names that are accepted

A reference is accepted if none of its segments is empty; the flavor of the quotes has no say in it. A reference that is accepted, and has neither quotes nor numbers nor schema tokens, is quoted to a text without any of these that leaves no quote open. The same goes for expressions, which are written as they are, and for the columns that an insertion takes over from another statement.
-/

namespace SqlCompose

open Token

/-- The word `$schema` stands nowhere, not even in quotes. -/
def Schemaless (text : Text) : Prop :=
  ¬ "$schema" <:+: text

instance (text : Text) : Decidable (Schemaless text) :=
  inferInstanceAs (Decidable (¬ ("$schema" : Text) <:+: text))

namespace Schemaless

variable {text : Text}

theorem of_infix {part : Text} (schemaless : Schemaless text) (inside : part <:+: text) : Schemaless part :=
  fun found => schemaless (found.trans inside)

theorem not_mem (schemaless : Schemaless text) (digits : Text) : .schema digits ∉ read text := by
  intro member
  have whole : ("$schema" : Text) <+: source (.schema digits) := List.prefix_append _ digits
  have inside : source (.schema digits) <:+: write (read text) :=
    List.infix_of_mem_flatten (List.mem_map_of_mem member)
  rw [write_read] at inside
  exact schemaless (whole.isInfix.trans inside)

end Schemaless

/-! ### Expressions -/

/-- A text that is there and can be written into a statement. -/
def IsPhrase (outcome : Except Error Text) : Prop :=
  ∃ text, outcome = .ok text ∧ Expressible text ∧ Schemaless text

theorem Spans.of_expressible {text : Text} (expressible : Expressible text) (schemaless : Schemaless text) : Spans text 0 0 :=
  .of_numberless expressible.balanced schemaless.not_mem expressible.carries.placeholders_eq 0

theorem IsPhrase.spans {outcome : Except Error Text} (isPhrase : IsPhrase outcome) :
    ∃ text, outcome = .ok text ∧ Spans text 0 0 := by
  obtain ⟨text, shown, expressible, schemaless⟩ := isPhrase
  exact ⟨text, shown, .of_expressible expressible schemaless⟩

/-! ### References -/

namespace Identifier

theorem quoteTable_ok {flavor : Flavor} {reference text : Text} (done : quoteTable flavor reference = .ok text)
    (flavor' : Flavor) : ∃ text', quoteTable flavor' reference = .ok text' := by
  obtain ⟨parts, cut, -⟩ := Outcome.map_eq_ok.mp done
  exact ⟨_, Outcome.map_eq_ok.mpr ⟨parts, cut, rfl⟩⟩

/-- Whether a reference is accepted does not depend on the flavor. -/
theorem quoteColumn_ok {flavor : Flavor} {reference text : Text} (done : quoteColumn flavor reference = .ok text)
    (flavor' : Flavor) : ∃ text', quoteColumn flavor' reference = .ok text' := by
  unfold quoteColumn at done ⊢
  split at done
  · next column name found =>
    obtain ⟨quoted, table, -⟩ := Outcome.map_eq_ok.mp done
    obtain ⟨quoted', table'⟩ := quoteTable_ok table flavor'
    exact ⟨_, Outcome.map_eq_ok.mpr ⟨quoted', table', rfl⟩⟩
  · exact quoteTable_ok done flavor'

/-! ### What is quoted -/

theorem spans_enclose (flavor : Flavor) {name : Text} (spans : Spans name 0 0) : Spans (enclose flavor name) 0 0 := by
  have alone {quote : Char} (isQuote : Quoted.isQuote quote = true) : Spans (quote :: (Text.double quote name ++ [quote])) 0 0 := by
    have slotted : Slotted False (quote :: (Text.double quote name ++ [quote])) [] := .quoted_alone isQuote name
    have cut := Quoted.segments_quoted name isQuote (show Quoted.Closed quote [] from nofun)
    rw [List.append_nil] at cut
    refine .of_numberless slotted.found.balanced ?_ slotted.placeholders_eq 0
    intro digits member
    rw [read_eq, cut] at member
    exact absurd (List.mem_singleton.mp member) nofun
  cases flavor with
  | mssql =>
    have inner : Spans (Text.double ']' name) 0 0 := spans.double (by decide) (by decide)
    exact .literal "[" rfl (inner.behind "]" rfl (by decide))
  | mysql => exact alone (by decide)
  | postgres | sqlite | oracle => exact alone (by decide)

theorem spans_quote (flavor : Flavor) {name : Text} (spans : Spans name 0 0) : Spans (quote flavor name) 0 0 := by
  unfold quote
  split
  · exact spans
  · exact spans_enclose flavor spans

private theorem spans_part {reference part : Text} (nameable : Nameable reference) (schemaless : Schemaless reference)
    (inside : part <:+: reference) : Spans part 0 0 :=
  .of_expressible (nameable.of_infix inside).expressible (schemaless.of_infix inside)

theorem spans_quoteTable {flavor : Flavor} {reference text : Text} (nameable : Nameable reference)
    (schemaless : Schemaless reference) (done : quoteTable flavor reference = .ok text) : Spans text 0 0 := by
  obtain ⟨parts, cut, rfl⟩ := Outcome.map_eq_ok.mp done
  refine .join_bare "." rfl (by decide) ?_
  intro part member
  obtain ⟨name, inside, rfl⟩ := List.mem_map.mp member
  exact spans_quote flavor (spans_part nameable schemaless (infix_of_segments cut name inside))

theorem spans_quoteColumn {flavor : Flavor} {reference text : Text} (nameable : Nameable reference)
    (schemaless : Schemaless reference) (done : quoteColumn flavor reference = .ok text) : Spans text 0 0 := by
  unfold quoteColumn at done
  split at done
  · next column name found =>
    obtain ⟨inside, inside'⟩ := splitAlias?_infix found
    obtain ⟨quoted, table, rfl⟩ := Outcome.map_eq_ok.mp done
    have shortName := spans_quote flavor (spans_part nameable schemaless ((Text.trim_infix name).trans inside'))
    have front := spans_quoteTable (nameable.of_infix inside) (schemaless.of_infix inside) table
    rw [List.append_assoc]
    exact front.append_bare (.literal " AS " rfl shortName) (.literal (by decide) _)
  · exact spans_quoteTable nameable schemaless done

end Identifier

namespace Value

/-- A reference without quotes, numbers and schema tokens that is accepted by some way of quoting. -/
def IsReference (quoting : Flavor → Text → Except Error Text) (value : Value) : Prop :=
  ∃ reference, value.asReference = .ok reference ∧ Nameable reference ∧ Schemaless reference ∧
    ∃ flavor text, quoting flavor reference = .ok text

/-- A table reference that is accepted. -/
def IsTable (value : Value) : Prop :=
  value.IsReference Identifier.quoteTable

/-- A column reference that is accepted. -/
def IsColumn (value : Value) : Prop :=
  value.IsReference Identifier.quoteColumn

theorem IsTable.quoted {value : Value} (isTable : value.IsTable) (flavor : Flavor) :
    ∃ text, Identifier.quoteTableValue flavor value = .ok text ∧ Spans text 0 0 := by
  obtain ⟨reference, shown, nameable, schemaless, other, quoted, accepted⟩ := isTable
  obtain ⟨text, done⟩ := Identifier.quoteTable_ok accepted flavor
  exact ⟨text, Outcome.bind_eq_ok.mpr ⟨reference, shown, done⟩, Identifier.spans_quoteTable nameable schemaless done⟩

theorem IsColumn.quoted {value : Value} (isColumn : value.IsColumn) (flavor : Flavor) :
    ∃ text, Identifier.quoteColumnValue flavor value = .ok text ∧ Spans text 0 0 := by
  obtain ⟨reference, shown, nameable, schemaless, other, quoted, accepted⟩ := isColumn
  obtain ⟨text, done⟩ := Identifier.quoteColumn_ok accepted flavor
  exact ⟨text, Outcome.bind_eq_ok.mpr ⟨reference, shown, done⟩, Identifier.spans_quoteColumn nameable schemaless done⟩

theorem asText_of_asReference {value : Value} {text : Text} (shown : value.asReference = .ok text) : value.asText = .ok text := by
  cases value with
  | text t => exact shown
  | entry e => exact shown
  | _ => cases shown

theorem IsColumn.isPhrase {value : Value} (isColumn : value.IsColumn) : IsPhrase value.asText := by
  obtain ⟨reference, shown, nameable, schemaless, -⟩ := isColumn
  exact ⟨reference, asText_of_asReference shown, nameable.expressible, schemaless⟩

end Value

/-! ### Lists -/

/-- Steps that all succeed with something of a sort succeed together. -/
theorem Outcome.mapM_total {α β : Type} {f : α → Except Error β} {good : β → Prop} {items : List α}
    (each : ∀ item ∈ items, ∃ result, f item = .ok result ∧ good result) :
    ∃ results, items.mapM f = .ok results ∧ ∀ result ∈ results, good result := by
  induction items with
  | nil => exact ⟨[], rfl, List.forall_mem_nil _⟩
  | cons item items ih =>
    obtain ⟨result, here, fine⟩ := each item (by simp)
    obtain ⟨results, there, all⟩ := ih fun other member => each other (List.mem_cons_of_mem item member)
    refine ⟨result :: results, ?_, List.forall_mem_cons.mpr ⟨fine, all⟩⟩
    rw [List.mapM_cons, here, bind_ok, there]
    rfl

theorem Identifier.quoteColumns_total {references : List Value} (columns : ∀ reference ∈ references, reference.IsColumn)
    (flavor : Flavor) : ∃ texts, quoteColumns flavor references = .ok texts ∧ ∀ text ∈ texts, Spans text 0 0 :=
  Outcome.mapM_total fun reference member => (columns reference member).quoted flavor

/-- A reference that is accepted, or an expression. -/
def Field.IsProper (field : Field) : Prop :=
  if field.raw then IsPhrase field.value.asText else field.value.IsColumn

theorem Field.IsProper.isPhrase {field : Field} (proper : field.IsProper) : IsPhrase field.value.asText := by
  unfold IsProper at proper
  split at proper
  · exact proper
  · exact proper.isPhrase

theorem Field.renderAll_total {fields : List Field} (proper : ∀ field ∈ fields, field.IsProper) (flavor : Flavor) :
    ∃ texts, renderAll flavor fields = .ok texts ∧ ∀ text ∈ texts, Spans text 0 0 := by
  have rendered : ∃ values, fields.mapM (render flavor) = .ok values ∧
      ∀ value ∈ values, ∃ text, value.asText = .ok text ∧ Spans text 0 0 := by
    refine Outcome.mapM_total fun field member => ?_
    have own := proper field member
    unfold IsProper at own
    unfold render
    split at own
    · next raw =>
      rw [if_pos raw]
      exact ⟨field.value, rfl, own.spans⟩
    · next quoted =>
      rw [if_neg quoted]
      obtain ⟨text, done, spans⟩ := own.quoted flavor
      exact ⟨.text text, Outcome.map_eq_ok.mpr ⟨text, done, rfl⟩, text, rfl, spans⟩
  obtain ⟨values, done, texts⟩ := rendered
  obtain ⟨written, all, spans⟩ := Outcome.mapM_total texts
  exact ⟨written, Outcome.bind_eq_ok.mpr ⟨values, done, all⟩, spans⟩

theorem OrderBy.renderAll_total {orders : List OrderBy} (columns : ∀ order ∈ orders, order.field.IsColumn) (flavor : Flavor) :
    ∃ texts, renderAll flavor orders = .ok texts ∧ ∀ text ∈ texts, Spans text 0 0 := by
  refine Outcome.mapM_total fun order member => ?_
  obtain ⟨column, done, spans⟩ := (columns order member).quoted flavor
  refine ⟨_, Outcome.map_eq_ok.mpr ⟨column, done, rfl⟩, ?_⟩
  rw [List.append_assoc]
  cases order.direction with
  | ascending => exact spans.behind _ rfl (by decide)
  | descending => exact spans.behind _ rfl (by decide)

/-- The column that an expression gives can be quoted as a target. -/
theorem OutputColumn.targetColumn_total {column : Value} (isPhrase : IsPhrase column.asText) (flavor : Flavor) :
    ∃ text, Insert.targetColumn flavor column = .ok text ∧ Spans text 0 0 := by
  obtain ⟨reference, shown, expressible, schemaless⟩ := isPhrase
  refine ⟨_, Outcome.map_eq_ok.mpr ⟨reference, shown, rfl⟩, Identifier.spans_quote flavor ?_⟩
  cases found : ofReference? reference with
  | none => exact .of_expressible expressible schemaless
  | some run =>
    obtain ⟨inside, parts⟩ := ofReference?_some found
    have nameable : Nameable run :=
      ⟨fun c member => not_isQuote_of_isNamePart (parts c member), expressible.numberless.of_infix inside⟩
    exact .of_expressible nameable.expressible (schemaless.of_infix inside)

/-! ### Aliases -/

/-- A name that can be written if it is there at all. -/
def Value.IsAlias (name : Value) : Prop :=
  name.truthy = true → IsPhrase name.printed

theorem Value.IsAlias.behind {name : Value} (isAlias : name.IsAlias) {opening : Text} (ordinary : opening.all isPlain = true)
    (first : opening.head?.map setsOff = some true) :
    ∃ text, SqlCompose.behind opening name = .ok text ∧ Spans text 0 0 ∧ SetOff text := by
  unfold SqlCompose.behind
  split
  · next given =>
    obtain ⟨text, shown, spans⟩ := (isAlias given).spans
    exact ⟨opening ++ text, Outcome.map_eq_ok.mpr ⟨text, shown, rfl⟩, .literal opening ordinary spans, .literal first text⟩
  · exact ⟨[], rfl, .nil 0, .nil⟩

/-- A table, and its alias behind an opening if it has one. -/
theorem spans_target {table name : Value} (isTable : table.IsTable) (isAlias : name.IsAlias) (flavor : Flavor) {opening : Text}
    (ordinary : opening.all isPlain = true) (first : opening.head?.map setsOff = some true) :
    ∃ quoted shortName, Identifier.quoteTableValue flavor table = .ok quoted ∧ behind opening name = .ok shortName ∧
      Spans (quoted ++ shortName) 0 0 := by
  obtain ⟨quoted, done, spans⟩ := isTable.quoted flavor
  obtain ⟨shortName, written, spans', apart⟩ := isAlias.behind ordinary first
  exact ⟨quoted, shortName, done, written, spans.append_bare spans' apart⟩

end SqlCompose
