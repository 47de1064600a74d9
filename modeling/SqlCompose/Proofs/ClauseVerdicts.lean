import Mathlib
import SqlCompose.Proofs.Incompleteness
import SqlCompose.Proofs.SolidConditions

/-!
# Clauses that fail only for want of a part

A clause of accepted names and solid conditions fails only for want of a part in a statement inside it, and otherwise its text spans as many numbers as it binds values. A clause is left out only if it binds none, so the clause after it starts where this one ends.
-/

namespace SqlCompose

open Token Build

/-- There are numerals for so many numbers from a start on. -/
structure Room (start count : Nat) : Prop where
  positive : 1 ≤ start
  within : start + count ≤ 10 ^ Numeral.digitLimit

namespace Room

variable {start count count' : Nat}

theorem first (room : Room start (count + count')) : Room start count :=
  ⟨room.positive, (Nat.add_le_add_left (Nat.le_add_right count count') start).trans room.within⟩

theorem later (room : Room start (count + count')) : Room (start + count) count' :=
  ⟨room.positive.trans (Nat.le_add_right start count), (Nat.add_assoc start count count').symm ▸ room.within⟩

theorem few (room : Room start count) : count < 10 ^ Numeral.digitLimit := by
  have positive := room.positive
  have within := room.within
  omega

/-- What leaves room for all items leaves room for each of them. -/
theorem few_of_mem {α : Type} {bound : α → List Value} {items : List α} (few : (items.flatMap bound).length < 10 ^ Numeral.digitLimit) {item : α}
    (member : item ∈ items) : (bound item).length < 10 ^ Numeral.digitLimit := by
  rw [List.flatMap_def] at few
  exact Nat.lt_of_le_of_lt (List.sublist_flatten_of_mem (List.mem_map_of_mem member)).length_le few

end Room

/-! ### What is numbered -/

/-- A text that spans the numbers of some values from a start on. -/
structure Numbered.Binds (numbered : Numbered) (start : Nat) (bound : List Value) : Prop where
  spans : Spans numbered.text start numbered.values.length
  same : Value.SameContent numbered.values bound
  next : numbered.next = (start + numbered.values.length : Nat)

theorem Spans.eq_zero_of_nil {start count : Nat} (spans : Spans [] start count) : count = 0 := by
  cases count with
  | zero => rfl
  | succ rest => exact absurd (spans.reached rest rfl) List.not_mem_nil

namespace Clause

/-- A clause that is there with some values, or is left out because there are none. -/
inductive Fits (start : Nat) (bound : List Value) : Option Numbered → Prop
  | absent (vacant : bound = []) : Fits start bound none
  | present {numbered : Numbered} (binds : numbered.Binds start bound) : Fits start bound (some numbered)

variable {clause : Clause} {clauses clauses' : List Clause} {lacking lacking' : Prop} {bound bound' : List Value}

/-- From one start the clause binds the values unless something is lacking. -/
def RendersFrom (clause : Clause) (start : Nat) (lacking : Prop) (bound : List Value) : Prop :=
  (clause start).Settles lacking (Fits start bound)

/-- The same from every start that leaves room. -/
def Renders (clause : Clause) (lacking : Prop) (bound : List Value) : Prop :=
  ∀ start, Room start bound.length → clause.RendersFrom start lacking bound

/-! ### Sequences of clauses -/

/-- Clauses that bind their values one after another. -/
inductive AllRender : List Clause → Prop → List Value → Prop
  | nil : AllRender [] False []
  | cons {clause : Clause} {clauses : List Clause} {lacking lacking' : Prop} {bound bound' : List Value}
      (here : clause.Renders lacking bound) (there : AllRender clauses lacking' bound') :
      AllRender (clause :: clauses) (lacking ∨ lacking') (bound ++ bound')

theorem AllRender.congr (all : AllRender clauses lacking bound) (same : lacking ↔ lacking') (one : bound = bound') :
    AllRender clauses lacking' bound' := by
  rw [← propext same, ← one]
  exact all

theorem AllRender.behind (here : clause.Renders False bound) (there : AllRender clauses lacking bound') :
    AllRender (clause :: clauses) lacking (bound ++ bound') :=
  (cons here there).congr (by simp) rfl

theorem AllRender.bare (here : clause.Renders False []) (there : AllRender clauses lacking bound) :
    AllRender (clause :: clauses) lacking bound :=
  behind here there

theorem AllRender.append (first : AllRender clauses lacking bound) (second : AllRender clauses' lacking' bound') :
    AllRender (clauses ++ clauses') (lacking ∨ lacking') (bound ++ bound') := by
  induction first with
  | nil => exact second.congr (by simp) rfl
  | cons here _ ih => exact (cons here ih).congr or_assoc.symm (List.append_assoc _ _ _).symm

theorem AllRender.map {α : Type} {f : α → Clause} {items : List α} {lacks : α → Prop} {binds : α → List Value}
    (each : ∀ item ∈ items, (f item).Renders (lacks item) (binds item)) :
    AllRender (items.map f) (∃ item ∈ items, lacks item) (items.flatMap binds) := by
  induction items with
  | nil => exact nil.congr (by simp) rfl
  | cons item items ih =>
    have others := ih fun other member => each other (List.mem_cons_of_mem item member)
    exact (cons (each item (by simp)) others).congr (List.exists_mem_cons_iff lacks item items).symm rfl

/-- Texts in turn, with their values. -/
structure Sequenced (start : Nat) (bound : List Value) (result : List Text × List Value) : Prop where
  inTurn : Spans.InTurn result.1 start result.2.length
  same : Value.SameContent result.2 bound

private theorem sequence_cons {start : Nat} (here : clause.RendersFrom start lacking bound)
    (there : (sequence (start + bound.length : Nat) clauses).Settles lacking' (Sequenced (start + bound.length) bound')) :
    (sequence start (clause :: clauses)).Settles (lacking ∨ lacking') (Sequenced start (bound ++ bound')) := by
  rw [sequence]
  refine here.bind fun outcome fits => ?_
  cases fits with
  | absent vacant =>
    subst vacant
    exact there
  | @present numbered binds =>
    have length := binds.same.length_eq
    rw [← length] at there
    have next := binds.next
    change (sequence numbered.next clauses >>= fun later => pure (numbered.text :: later.1, numbered.values ++ later.2)).Settles _ _
    rw [next]
    refine there.andThen fun result sequenced => .pure ⟨?_, binds.same.append sequenced.same⟩
    rw [List.length_append]
    exact .cons binds.spans sequenced.inTurn

theorem sequence_settles (all : AllRender clauses lacking bound) {start : Nat} (room : Room start bound.length) :
    (sequence start clauses).Settles lacking (Sequenced start bound) := by
  induction all generalizing start with
  | nil => exact .pure ⟨.nil, .refl []⟩
  | cons here there ih =>
    rw [List.length_append] at room
    exact sequence_cons (here start room.first) (ih room.later)

end Clause

/-- A fragment that spans the numbers of some values. -/
structure Fragment.Binds (fragment : Fragment) (bound : List Value) : Prop where
  spans : Spans fragment.text.content 1 fragment.values.length
  same : Value.SameContent fragment.values bound

namespace Clause

variable {clause : Clause} {clauses : List Clause} {lacking lacking' : Prop} {bound bound' : List Value}

/-- A statement of clauses that bind their values; the first of them need only do so from one. -/
theorem assemble_settles (first : clause.RendersFrom 1 lacking bound) (others : AllRender clauses lacking' bound')
    (room : Room 1 (bound ++ bound').length) :
    (assemble (clause :: clauses)).Settles (lacking ∨ lacking') (·.Binds (bound ++ bound')) := by
  rw [List.length_append] at room
  have sequenced := sequence_cons first (sequence_settles others room.later)
  exact sequenced.andThen fun result fine => .pure ⟨.join "\n" rfl (by decide) fine.inTurn, fine.same⟩

/-! ### Clauses without values -/

theorem plain_renders {text : Build Text} (settles : text.Settles False fun written => Spans written 0 0) :
    (plain text).Renders False [] := by
  intro start _
  exact settles.after fun written spans => .pure (.present ⟨spans.anywhere start, .refl [], rfl⟩)

theorem optional_renders {text : Build (Option Text)}
    (settles : text.Settles False fun outcome => ∀ written ∈ outcome, Spans written 0 0) : (optional text).Renders False [] := by
  intro start _
  refine settles.after fun outcome spans => .pure ?_
  cases outcome with
  | none => exact .absent rfl
  | some written => exact .present ⟨(spans written rfl).anywhere start, .refl [], rfl⟩

/-- A list of texts without numbers behind an opening, left out if it is asked to be. -/
theorem listed_renders {opening : Text} (ordinary : opening.all isPlain = true) {texts : Except Error (List Text)}
    (total : ∃ written, texts = .ok written ∧ ∀ text ∈ written, Spans text 0 0) (vacant : Bool) :
    (optional do
      if vacant then return none
      else return some (opening ++ Text.join ", " (← texts))).Renders False [] := by
  refine optional_renders ?_
  split
  · exact .pure (by simp)
  · obtain ⟨written, done, spans⟩ := total
    refine .known done (.pure ?_)
    intro text same
    obtain rfl := Option.some.inj same
    exact .literal opening ordinary (.join_bare ", " rfl (by decide) spans)

theorem returning_renders {fields : List Field} (proper : ∀ field ∈ fields, field.IsProper) (flavor : Flavor) :
    (returning flavor fields).Renders False [] :=
  listed_renders rfl (Field.renderAll_total proper flavor) fields.isEmpty

theorem orderBy_renders {orders : List OrderBy} (columns : ∀ order ∈ orders, order.field.IsColumn) (flavor : Flavor) :
    (orderBy flavor orders).Renders False [] :=
  listed_renders rfl (OrderBy.renderAll_total columns flavor) orders.isEmpty

end Clause

/-- How many rows there may be, and how many are passed over. -/
def Paging.counts (paging : Paging) : List Nat :=
  paging.limit.toList ++ paging.offset.toList

theorem Paging.spans_render {paging : Paging} (few : ∀ count ∈ paging.counts, count < 10 ^ Numeral.digitLimit) :
    ∀ line ∈ paging.render, ∃ text, line = .ok text ∧ Spans text 0 0 := by
  intro line member
  have digits (n : Nat) : Spans (Text.ofNat n) 0 0 :=
    .of_plain (List.all_eq_true.mpr fun c inside => isPlain_of_isDigit (Text.isDigit_of_mem_ofNat inside)) 0
  obtain ⟨keyword, n, known, set, shown⟩ := exists_of_mem_render member
  have small : n < 10 ^ Numeral.digitLimit := few n (by simpa [counts] using set)
  have written : Numeral.write n = .ok (Text.ofNat n) :=
    Numeral.write_eq_ok.mpr ⟨Numeral.writable_of_lt (Int.natCast_nonneg n) (by exact_mod_cast small), rfl⟩
  refine ⟨keyword ++ Text.ofNat n, by rw [shown, written]; rfl, ?_⟩
  rcases known with rfl | rfl
  · exact .literal _ rfl (digits n)
  · exact .literal _ rfl (digits n)

/-! ### Conditions -/

/-- A chain of solid predicates, or one of them in its place. -/
def Restriction.Solid : Restriction → Prop
  | chain held => held.item.Solid
  | predicate p => p.Solid
  | unusable _ _ => False

theorem Predicate.render_binds {predicate : Predicate} (solid : predicate.Solid) {start : Nat}
    (room : Room start predicate.values.length) :
    predicate.render start = .ok (predicate.numbered start) ∧ (predicate.numbered start).Binds start predicate.values :=
  have ⟨done, spans, next⟩ := render_of_solid solid room.within
  ⟨done, spans, .refl _, next⟩

theorem Restriction.render_settles {restriction : Restriction} (solid : restriction.Solid) {start : Nat}
    (room : Room start restriction.values.length) :
    (restriction.render start).Settles False (·.Binds start restriction.values) := by
  cases restriction with
  | chain held =>
    have values : (chain held).values = held.item.values := List.flatMap_map _ _ _
    rw [values] at room ⊢
    rw [render, Chain.render]
    split
    · next vacant =>
      have none : held.item.values = [] := by
        rw [Chain.values, List.isEmpty_iff.mp vacant]
        rfl
      rw [none]
      exact .pure ⟨.nil start, .refl [], rfl⟩
    · refine (Chain.settles_toPredicate solid true).after fun predicate given => ?_
      obtain ⟨solid, same⟩ := given
      rw [← same.length_eq] at room
      obtain ⟨done, binds⟩ := Predicate.render_binds solid room
      exact .lift done ⟨binds.spans, same, binds.next⟩
  | predicate p =>
    have values : (predicate p).values = p.values := List.append_nil _
    rw [values] at room ⊢
    obtain ⟨done, binds⟩ := Predicate.render_binds solid room
    exact .lift done binds
  | unusable _ _ => exact solid.elim

theorem Clause.conditions_renders {keyword : Text} (ordinary : keyword.all isPlain = true) {restriction : Restriction}
    (solid : restriction.Solid) : (conditions keyword restriction).Renders False restriction.values := by
  intro start room
  refine (Restriction.render_settles solid room).after fun rendered binds => ?_
  obtain ⟨spans, same, next⟩ := binds
  split
  · next empty =>
    rw [List.isEmpty_iff.mp empty] at spans
    refine .pure (.absent (List.eq_nil_of_length_eq_zero ?_))
    rw [← same.length_eq]
    exact spans.eq_zero_of_nil
  · refine .pure (.present ⟨?_, same, next⟩)
    have whole := (spans.literal " " rfl).literal keyword ordinary
    rw [← List.append_assoc] at whole
    exact whole

/-! ### Statements inside -/

/-- A legible query over values with the same content as those that it is to bind. -/
structure BuiltQuery.Holds (built : BuiltQuery) (bound : List Value) : Prop where
  legible : built.Legible
  same : Value.SameContent built.values bound

/-- A query that, as a part of another, fails exactly if it is incomplete, and for want of a part; else it is legible. -/
def Query.Answers (query : Query) : Prop :=
  query.boundValues.length < 10 ^ Numeral.digitLimit → query.toChild.build.Settles query.Incomplete (·.Holds query.boundValues)

namespace BuiltQuery

theorem Holds.renumber {built : BuiltQuery} {bound : List Value} (holds : built.Holds bound) {start : Nat}
    (room : Room start bound.length) : ∃ (fragment : Fragment) (text : Wording), built.toFragment = .ok fragment ∧
      fragment.renumber start = .ok ⟨text, built.values, (start + built.values.length : Nat)⟩ ∧
      text.Spans start built.values.length := by
  obtain ⟨wording, -, read, -, spans⟩ := holds.legible.toFragment
  rw [← holds.same.length_eq] at room
  obtain ⟨text, renumbered, placed⟩ := @Fragment.renumber_spans ⟨wording, built.values⟩ spans start room.positive room.within
  exact ⟨_, text, read, renumbered, placed⟩

theorem settles_make {text : Text} {values : List Value} (spans : Spans text 1 values.length) {bound : List Value}
    (same : Value.SameContent values bound) : (make text values).Settles False (·.Holds bound) := by
  refine (settles_ofParts (.text text) values).mono fun built given => ?_
  rw [← given.2.length_eq] at spans
  exact ⟨.of_text given.1 spans, given.2.trans same⟩

end BuiltQuery

namespace Fragment

/-- Texts that span the numbers of some values between them, whether they are read or printed. -/
structure Merged.Binds (merged : Merged) (start : Nat) (bound : List Value) : Prop where
  content : Spans.InTurn (merged.texts.map Wording.content) start bound.length
  printed : Spans.InTurn (merged.texts.map Wording.printed) start bound.length
  values : merged.values = bound
  next : merged.next = (start + bound.length : Nat)

theorem mergeFrom_total {queries : List BuiltQuery} (legible : ∀ query ∈ queries, query.Legible) {start : Nat}
    (room : Room start (queries.flatMap (·.values)).length) :
    ∃ merged, mergeFrom BuiltQuery.toFragment start queries = .ok merged ∧ merged.Binds start (queries.flatMap (·.values)) := by
  induction queries generalizing start with
  | nil => exact ⟨_, rfl, .nil, .nil, rfl, rfl⟩
  | cons query queries ih =>
    rw [List.flatMap_cons, List.length_append] at room
    have holds : query.Holds query.values := ⟨legible query (by simp), .refl _⟩
    obtain ⟨fragment, text, read, renumbered, spans⟩ := holds.renumber room.first
    obtain ⟨others, merged, binds⟩ := ih (fun other member => legible other (List.mem_cons_of_mem query member)) room.later
    refine ⟨⟨text :: others.texts, query.values ++ others.values, others.next⟩, ?_, ?_, ?_, ?_, ?_⟩
    · rw [mergeFrom, read, Outcome.bind_ok, renumbered, Outcome.bind_ok, merged]
      rfl
    · rw [List.flatMap_cons, List.length_append]
      exact .cons spans.content binds.content
    · rw [List.flatMap_cons, List.length_append]
      exact .cons spans.printed binds.printed
    · rw [List.flatMap_cons, binds.values]
    · rw [List.flatMap_cons, List.length_append, ← Nat.add_assoc]
      exact binds.next

end Fragment

/-- What is built for each of some items, taken together. -/
theorem BuiltQuery.holds_all {α : Type} {items : List α} {built : List BuiltQuery} {bound : α → List Value}
    (all : List.Forall₂ (fun item query => query.Holds (bound item)) items built) :
    (∀ query ∈ built, query.Legible) ∧ Value.SameContent (built.flatMap (·.values)) (items.flatMap bound) := by
  induction all with
  | nil => exact ⟨by simp, .refl []⟩
  | cons here _ ih => exact ⟨List.forall_mem_cons.mpr ⟨here.legible, ih.1⟩, here.same.append ih.2⟩

/-! ### Common table expressions -/

namespace Cte

variable {cte : Cte Query} {ctes : List (Cte Query)}

/-- A name that can be written, and a statement that fails only if it is incomplete. -/
structure Answers (cte : Cte Query) : Prop where
  isAlias : cte.name.IsAlias
  query : ∀ query ∈ cte.query, query.Answers

theorem build_settles (answers : cte.Answers) (few : (cte.bindings Query.boundValues).length < 10 ^ Numeral.digitLimit) :
    (cte.map Query.toChild).build.Settles cte.Incomplete (·.Holds (cte.bindings Query.boundValues)) := by
  obtain ⟨name, query, recursive⟩ := cte
  have named := Settles.require name.truthy logger .cteName
  cases query with
  | none =>
    refine (named.bind fun _ given => ?_).congr (show name.truthy = false ∨ True ↔ _ from ?_)
    · obtain ⟨shown, printed, -⟩ := (answers.isAlias given).spans
      exact .known printed (.failFor logger _)
    · simp [Incomplete, Lacks]
  | some query =>
    refine (named.bind fun _ given => ?_).congr (show name.truthy = false ∨ query.Incomplete ↔ _ from ?_)
    · obtain ⟨shown, printed, spans⟩ := (answers.isAlias given).spans
      refine (answers.query query rfl few).andThen fun built holds => ?_
      obtain ⟨wording, -, -, text, within⟩ := holds.legible.toFragment
      refine .known printed (.known text (BuiltQuery.settles_make ?_ holds.same))
      have body := (within.printed.behind "\n)" rfl (by decide)).literal " AS (\n" rfl
      have whole := spans.bare_append body (.literal (by decide) _)
      simp only [List.append_assoc]
      split
      · exact whole.literal _ rfl
      · exact whole.literal _ rfl
    · simp [Incomplete, Lacks]

theorem buildAll_settles (answers : ∀ cte ∈ ctes, cte.Answers)
    (few : (ctes.flatMap (Cte.bindings Query.boundValues)).length < 10 ^ Numeral.digitLimit) :
    (buildAll (ctes.map (Cte.map Query.toChild))).Settles (∃ cte ∈ ctes, cte.Incomplete)
      (·.Holds (ctes.flatMap (Cte.bindings Query.boundValues))) := by
  unfold buildAll
  split
  · next vacant =>
    rw [List.isEmpty_iff, List.map_eq_nil_iff] at vacant
    subst vacant
    exact (BuiltQuery.settles_make (.nil 1) (.refl [])).congr (by simp)
  · have each : ∀ cte ∈ ctes, ((cte.map Query.toChild).build).Settles cte.Incomplete (·.Holds (cte.bindings Query.boundValues)) := by
      intro cte member
      exact build_settles (answers cte member) (Room.few_of_mem few member)
    rw [List.mapM_map]
    refine (Settles.mapM each).andThen fun built all => ?_
    obtain ⟨legible, same⟩ := BuiltQuery.holds_all all
    have room : Room 1 (built.flatMap (·.values)).length := ⟨le_rfl, by rw [same.length_eq]; omega⟩
    obtain ⟨merged, done, binds⟩ := Fragment.mergeFrom_total legible room
    refine .known done ((Settles.log _ _ _).after fun _ _ => BuiltQuery.settles_make ?_ (by rwa [binds.values]))
    rw [binds.values]
    exact .literal "WITH " rfl (.join ", " rfl (by decide) binds.content)

end Cte

/-- The `WITH` clause comes first, so it is only ever numbered from one. -/
theorem Clause.with_renders {ctes : Option (List (Cte Query))} (answers : ∀ cte ∈ ctes.getD [], cte.Answers)
    (few : ((ctes.getD []).flatMap (Cte.bindings Query.boundValues)).length < 10 ^ Numeral.digitLimit) :
    (Clause.with (ctes.map (·.map (Cte.map Query.toChild)))).RendersFrom 1 (∃ cte ∈ ctes.getD [], cte.Incomplete)
      ((ctes.getD []).flatMap (Cte.bindings Query.boundValues)) := by
  cases ctes with
  | none =>
    have absent : (pure none : Build (Option Numbered)).Settles False (Fits 1 []) := .pure (.absent rfl)
    exact absent.congr (by simp)
  | some ctes =>
    refine (Cte.buildAll_settles answers few).andThen fun built holds => ?_
    obtain ⟨wording, read, -, -, spans⟩ := holds.legible.toFragment
    refine .known read ?_
    simp only
    split
    · next empty =>
      have content := spans.content
      rw [List.isEmpty_iff.mp empty] at content
      refine .pure (.absent (List.eq_nil_of_length_eq_zero ?_))
      rw [← holds.same.length_eq]
      exact content.eq_zero_of_nil
    · exact .pure (.present ⟨spans.content, holds.same, by push_cast; rfl⟩)

/-! ### Joins -/

/-- An accepted table under an alias that can be written, or a statement under one. -/
def JoinSource.Accepted {Q : Type} : JoinSource Q → Prop
  | table reference name => reference.IsTable ∧ name.IsAlias
  | subquery _ name => IsPhrase name.printed

namespace Join

variable {join : Join Query}

/-- A join with accepted names, a solid condition, and a statement that fails only if it is incomplete. -/
structure Answers (join : Join Query) : Prop where
  source : join.source.Accepted
  condition : ∀ predicate ∈ join.condition, predicate.Solid
  child : ∀ child ∈ join.child?, child.Answers

private theorem renderSource_settles {flavor : Flavor} (answers : join.Answers) {start : Nat}
    (room : Room start ((join.child?.map Query.boundValues).getD []).length) :
    (renderSource flavor (join.map Query.toChild).source start).Settles join.Incomplete
      (·.Binds start ((join.child?.map Query.boundValues).getD [])) := by
  obtain ⟨kind, source, condition⟩ := join
  cases source with
  | table reference name =>
    obtain ⟨isTable, isAlias⟩ := answers.source
    obtain ⟨quoted, shortName, table, named, spans⟩ := @spans_target reference name isTable isAlias flavor " " rfl (by decide)
    have rendered : (renderSource flavor (.table reference name) start).Settles False (·.Binds start []) :=
      .known table (.known named (.pure ⟨spans.anywhere start, .refl [], rfl⟩))
    exact rendered.congr (by simp [Incomplete, child?])
  | subquery query name =>
    obtain ⟨shown, printed, named⟩ := (show IsPhrase name.printed from answers.source).spans
    have incomplete : query.Incomplete ↔ (Join.mk kind (.subquery query name) condition).Incomplete := by simp [Incomplete, child?]
    refine ((answers.child query rfl room.few).andThen fun built holds => ?_).congr incomplete
    obtain ⟨fragment, text, read, renumbered, spans⟩ := holds.renumber room
    refine .known read (.known renumbered (.known printed (.pure ⟨?_, holds.same, rfl⟩)))
    have whole := (spans.content.indent 1).append_bare (named.literal "\n) " rfl) (.literal (by decide) _)
    simp only [List.append_assoc]
    exact whole.literal _ rfl

theorem render_renders (answers : join.Answers) (flavor : Flavor) :
    Clause.Renders (render flavor (join.map Query.toChild)) join.Incomplete (join.bindings Query.boundValues) := by
  intro start room
  rw [bindings, List.length_append] at room
  refine (renderSource_settles answers room.first).andThen fun source binds => ?_
  have head : Spans (Keyword.word join.kind ++ " JOIN " ++ source.text) start source.values.length := by
    rw [List.append_assoc]
    have behind := binds.spans.literal " JOIN " rfl
    cases join.kind <;> exact behind.literal _ rfl
  have length := binds.same.length_eq
  obtain ⟨kind, source', condition⟩ := join
  cases condition with
  | none =>
    rw [bindings]
    exact .pure (.present ⟨head, by simpa using binds.same, binds.next⟩)
  | some predicate =>
    have later := room.later
    rw [← length] at later
    obtain ⟨done, bound⟩ := Predicate.render_binds (answers.condition predicate rfl) later
    have whole := head.append (bound.spans.literal "\n ON " rfl) (.literal (by decide) _)
    rw [← List.append_assoc] at whole
    rw [← binds.next] at done
    refine .known done (.pure (.present ⟨?_, binds.same.append ?_, ?_⟩))
    · simp only [map, binds.next, List.length_append]
      exact whole
    · simp only [binds.next]
      exact bound.same
    · simp only [binds.next, List.length_append, ← Nat.add_assoc]
      exact bound.next

end Join

end SqlCompose
