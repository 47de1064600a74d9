import Mathlib
import SqlCompose.Proofs.StatementParts
import SqlCompose.Proofs.Twins
import SqlCompose.Proofs.Verdicts

/-!
# One query, built at two times

Building gives out labels and logs records, so it is never quite the same twice. But without compaction nothing is read off the labels: from whatever traces, a query either fails with one failure or is built to one text over values with the same content (`Query.repeats_build`). So a condition becomes one predicate, up to its labels, whenever it is asked for (`Condition.repeats_toPredicate`).
-/

namespace SqlCompose

open Build
open Value (SameContent)

/-! ### Values -/

namespace Value

variable {left right : List Value}

/-- What is refused among values is a matter of their content. -/
theorem SameContent.faults (same : SameContent left right) : faultItems? left = faultItems? right := by
  have own (values : List Value) : faultItems? (values.map content) = faultItems? values := by
    induction values with
    | nil => rfl
    | cons value values ih => rw [List.map_cons, faultItems?, faultItems?, ih, content, fault?_copyFrom]
  rw [← own left, ← own right, same]

theorem copyAll_repeats (same : SameContent left right) : Alike SameContent (copyAll left) (copyAll right) :=
  fun trace trace' => .ok (((content_copyItems trace.nextLabel left).trans same).trans (content_copyItems trace'.nextLabel right).symm)

theorem checkAll_repeats (same : SameContent left right) : Alike SameContent (checkAll left) (checkAll right) := by
  unfold checkAll
  rw [same.faults]
  split
  · exact alike_throw _
  · exact copyAll_repeats same

end Value

/-- One text, over values with the same content. -/
structure Predicate.Repeats (left right : Predicate) : Prop where
  text : left.text = right.text
  values : SameContent left.values right.values

structure Fragment.Repeats (left right : Fragment) : Prop where
  text : left.text = right.text
  values : SameContent left.values right.values

structure BuiltQuery.Repeats (left right : BuiltQuery) : Prop where
  text : left.text = right.text
  values : SameContent left.values right.values

structure Numbered.Repeats {T : Type} (left right : Numbered T) : Prop where
  text : left.text = right.text
  values : SameContent left.values right.values
  next : left.next = right.next

structure Fragment.Merged.Repeats (left right : Merged) : Prop where
  texts : left.texts = right.texts
  values : SameContent left.values right.values
  next : left.next = right.next

/-! ### Conditions -/

theorem Predicate.make_repeats (text : Wording) {left right : List Value} (same : SameContent left right) :
    Alike Repeats (make text left) (make text right) := by
  refine (Value.checkAll_repeats same).bind fun copies copies' both => ?_
  simp only [both.length_eq]
  split
  · exact alike_pure ⟨rfl, both⟩
  · exact alike_throw _

theorem Predicate.Repeats.render {left right : Predicate} (both : left.Repeats right) (start : Int) :
    Outcome.Alike Numbered.Repeats (left.render start) (right.render start) := by
  simp only [Predicate.render, both.text]
  refine (Outcome.alike_same _).map ?_
  rintro bound _ rfl
  exact ⟨rfl, both.values, rfl⟩

theorem Chain.render_repeats (chain : Chain) (start : Int) (newLine : Bool) :
    Alike Numbered.Repeats (chain.render start newLine) (chain.render start newLine) := by
  unfold render
  split
  · exact alike_pure ⟨rfl, .refl _, rfl⟩
  · exact (Predicate.make_repeats _ (.refl _)).bind fun _ _ both => alike_lift (both.render start)

theorem Restriction.render_repeats (restriction : Restriction) (start : Int) :
    Alike Numbered.Repeats (restriction.render start) (restriction.render start) := by
  cases restriction with
  | chain held => exact held.item.render_repeats start true
  | predicate p => exact alike_lift (Predicate.Repeats.render ⟨rfl, .refl _⟩ start)
  | unusable _ _ => exact alike_throw _

/-! ### Finished queries as parts -/

namespace BuiltQuery

variable {left right : BuiltQuery}

theorem ofParts_repeats (text : Value) {values values' : List Value} (same : SameContent values values') :
    Alike Repeats (ofParts text values) (ofParts text values') :=
  (Value.copyAll_repeats same).bind fun _ _ both => alike_pure ⟨rfl, both⟩

theorem make_repeats (text : Text) {values values' : List Value} (same : SameContent values values') :
    Alike Repeats (make text values) (make text values') :=
  ofParts_repeats (.text text) same

theorem Repeats.wording (both : left.Repeats right) : left.wording = right.wording := by
  rw [BuiltQuery.wording, BuiltQuery.wording, both.text]

theorem Repeats.toFragment (both : left.Repeats right) : Outcome.Alike Fragment.Repeats left.toFragment right.toFragment := by
  rw [BuiltQuery.toFragment, BuiltQuery.toFragment, both.wording]
  refine (Outcome.alike_same right.wording).map ?_
  rintro wording _ rfl
  exact ⟨rfl, both.values⟩

end BuiltQuery

namespace Fragment

variable {left right : Fragment}

theorem Repeats.renumber (both : left.Repeats right) (start : Int) :
    Outcome.Alike Numbered.Repeats (left.renumber start) (right.renumber start) := by
  simp only [Fragment.renumber, shiftedText, shiftedNumbers, misfit, both.text, both.values.length_eq]
  refine (Outcome.alike_same _).bind ?_
  rintro indices _ rfl
  split
  · exact (Outcome.alike_same _).bind fun _ _ _ => .ok ⟨rfl, both.values, rfl⟩
  · exact .error _

theorem Repeats.unbind (both : left.Repeats right) : left.unbind = right.unbind := by
  simp only [Fragment.unbind, misfit, both.text, both.values.length_eq]

theorem mergeFrom_repeats {queries queries' : List BuiltQuery} (all : List.Forall₂ BuiltQuery.Repeats queries queries') (start : Int) :
    Outcome.Alike Merged.Repeats (mergeFrom BuiltQuery.toFragment start queries) (mergeFrom BuiltQuery.toFragment start queries') := by
  induction all generalizing start with
  | nil => exact .ok ⟨rfl, .refl _, rfl⟩
  | cons here _ ih =>
    refine here.toFragment.bind fun source source' both => (both.renumber start).bind fun first first' numbered => ?_
    rw [numbered.next]
    refine (ih first'.next).bind fun others others' rest => .ok ⟨?_, numbered.values.append rest.values, rest.next⟩
    rw [numbered.text, rest.texts]

end Fragment

/-! ### Clauses -/

namespace Clause

/-- Whenever the clause is rendered from a start, it is left out, or it is one text over values with the same content. -/
def Repeats (clause : Clause) : Prop :=
  ∀ start, Alike (Option.Rel Numbered.Repeats) (clause start) (clause start)

theorem repeats_plain {text : Build Text} (alike : Alike Eq text text) : Repeats (plain text) := by
  refine fun start => alike.bind ?_
  rintro written _ rfl
  exact alike_pure (.some ⟨rfl, .refl _, rfl⟩)

theorem repeats_optional {text : Build (Option Text)} (alike : Alike Eq text text) : Repeats (optional text) := by
  refine fun start => alike.bind ?_
  rintro written _ rfl
  cases written with
  | none => exact alike_pure .none
  | some written => exact alike_pure (.some ⟨rfl, .refl _, rfl⟩)

theorem repeats_conditions (keyword : Text) (restriction : Restriction) : Repeats (conditions keyword restriction) := by
  refine fun start => (restriction.render_repeats start).bind fun rendered rendered' both => ?_
  rw [both.text]
  split
  · exact alike_pure .none
  · exact alike_pure (.some ⟨rfl, both.values, both.next⟩)

theorem sequence_repeats {clauses : List Clause} (all : ∀ clause ∈ clauses, clause.Repeats) (start : Int) :
    Alike (fun lines lines' => lines.1 = lines'.1 ∧ SameContent lines.2 lines'.2) (sequence start clauses) (sequence start clauses) := by
  induction clauses generalizing start with
  | nil => exact alike_pure ⟨rfl, .refl _⟩
  | cons clause clauses ih =>
    obtain ⟨here, there⟩ := List.forall_mem_cons.mp all
    refine (here start).bind fun outcome outcome' both => ?_
    cases both with
    | none => exact ih there start
    | @some numbered numbered' both =>
      simp only [both.next]
      refine (ih there numbered'.next).bind ?_
      rintro ⟨texts, values⟩ ⟨_, values'⟩ ⟨rfl, same⟩
      refine alike_pure ⟨?_, both.values.append same⟩
      rw [both.text]

theorem assemble_repeats {clauses : List Clause} (all : ∀ clause ∈ clauses, clause.Repeats) :
    Alike Fragment.Repeats (assemble clauses) (assemble clauses) := by
  refine (sequence_repeats all 1).bind ?_
  rintro ⟨texts, values⟩ ⟨_, values'⟩ ⟨rfl, same⟩
  exact alike_pure ⟨rfl, same⟩

theorem repeats_returning (flavor : Flavor) (fields : List Field) : Repeats (returning flavor fields) := by
  refine repeats_optional ?_
  split
  · exact alike_pure rfl
  · exact .after _ fun _ => alike_pure rfl

theorem repeats_orderBy (flavor : Flavor) (orders : List OrderBy) : Repeats (orderBy flavor orders) := by
  refine repeats_optional ?_
  split
  · exact alike_pure rfl
  · exact .after _ fun _ => alike_pure rfl

end Clause

/-- A part of a statement that is built alike whenever it is built. -/
def Child.Repeats (child : Child) : Prop :=
  Alike BuiltQuery.Repeats child.build child.build

/-! ### Common table expressions and joins -/

namespace Cte

theorem build_repeats {cte : Cte Child} (parts : ∀ child ∈ cte.query, child.Repeats) : Alike BuiltQuery.Repeats cte.build cte.build := by
  obtain ⟨name, query, recursive⟩ := cte
  refine (alike_require _ _ _).bind fun _ _ _ => ?_
  cases query with
  | none => exact .after _ fun _ => alike_failFor _ _
  | some child =>
    refine Alike.bind (parts child rfl) fun built built' both => .after _ fun name => ?_
    rw [both.text]
    exact .after _ fun body => BuiltQuery.make_repeats _ both.values

theorem buildAll_repeats {ctes : List (Cte Child)} (parts : ∀ cte ∈ ctes, ∀ child ∈ cte.query, child.Repeats) :
    Alike BuiltQuery.Repeats (buildAll ctes) (buildAll ctes) := by
  unfold buildAll
  split
  · exact BuiltQuery.make_repeats _ (.refl _)
  · have each : List.Forall₂ (fun cte cte' : Cte Child => Alike BuiltQuery.Repeats cte.build cte'.build) ctes ctes :=
      List.forall₂_same.mpr fun cte member => build_repeats (parts cte member)
    refine (alike_mapM each).bind fun built built' all => (alike_lift (Fragment.mergeFrom_repeats all 1)).bind fun merged merged' both => ?_
    refine (alike_log _ _ _ _).bind fun _ _ _ => ?_
    rw [both.texts]
    exact BuiltQuery.make_repeats _ both.values

end Cte

theorem Clause.repeats_with {ctes : Option (List (Cte Child))} (parts : ∀ cte ∈ ctes.getD [], ∀ child ∈ cte.query, child.Repeats) :
    Repeats (Clause.with ctes) := by
  intro start
  cases ctes with
  | none => exact alike_pure .none
  | some ctes =>
    refine (Cte.buildAll_repeats parts).bind fun built built' both => ?_
    rw [both.wording]
    refine .after _ fun text => ?_
    dsimp only
    split
    · exact alike_pure .none
    · exact alike_pure (.some ⟨rfl, both.values, by rw [both.values.length_eq]⟩)

namespace Join

theorem renderSource_repeats (flavor : Flavor) {join : Join Child} (parts : ∀ child ∈ join.child?, child.Repeats) (start : Int) :
    Alike Numbered.Repeats (renderSource flavor join.source start) (renderSource flavor join.source start) := by
  obtain ⟨kind, source, condition⟩ := join
  cases source with
  | table reference name => exact .after _ fun table => .after _ fun name => alike_pure ⟨rfl, .refl _, rfl⟩
  | subquery child name =>
    refine Alike.bind (parts child rfl) fun built built' both => (alike_lift both.toFragment).bind fun fragment fragment' both => ?_
    refine (alike_lift (both.renumber start)).bind fun inner inner' both => .after _ fun name => alike_pure ?_
    exact ⟨by rw [both.text], both.values, both.next⟩

theorem repeats_render (flavor : Flavor) {join : Join Child} (parts : ∀ child ∈ join.child?, child.Repeats) :
    Clause.Repeats (join.render flavor) := by
  refine fun start => (renderSource_repeats flavor parts start).bind fun joined joined' both => ?_
  rw [both.text, both.next]
  split
  · exact alike_pure (.some ⟨rfl, both.values, rfl⟩)
  · refine (alike_lift (Predicate.Repeats.render ⟨rfl, .refl _⟩ _)).bind fun _ _ condition => ?_
    rw [condition.text, condition.next]
    exact alike_pure (.some ⟨rfl, both.values.append condition.values, rfl⟩)

end Join

/-! ### Kinds of statement -/

theorem Settings.finish_repeats (settings : Settings) (kind : StatementKind) {render : Build Fragment}
    (alike : Alike Fragment.Repeats render render) (deep : Option Bool) :
    Alike BuiltQuery.Repeats (settings.finish kind render (some false) deep) (settings.finish kind render (some false) deep) := by
  refine alike.bind fun fragment fragment' both => ?_
  rw [both.text]
  refine .after _ fun text => ?_
  have final : Alike Fragment.Repeats (pure ⟨.plain text, fragment.values⟩) (pure ⟨.plain text, fragment'.values⟩) :=
    alike_pure ⟨rfl, both.values⟩
  refine final.bind fun finished finished' both => (alike_log _ _ _ _).bind fun _ _ _ => ?_
  rw [both.text]
  exact BuiltQuery.ofParts_repeats _ both.values

namespace Statement

variable {statement : Statement Child} (parts : ∀ child ∈ statement.children, child.Repeats)
include parts

private theorem repeats_ctes : ∀ cte ∈ statement.ctes, ∀ child ∈ cte.query, child.Repeats := fun cte member child inside =>
  parts child (List.mem_append_left _ (List.mem_append_left _ (List.mem_filterMap.mpr ⟨cte, member, inside⟩)))

private theorem repeats_joins (flavor : Flavor) : ∀ clause ∈ statement.joins.map (Join.render flavor), clause.Repeats :=
  List.forall_mem_map.mpr fun join member => Join.repeats_render flavor fun child inside =>
    parts child (List.mem_append_left _ (List.mem_append_right _ (List.mem_filterMap.mpr ⟨join, member, inside⟩)))

end Statement

namespace Select

variable {select : Select Child}

theorem build_repeats (parts : ∀ child ∈ (Statement.select select).children, child.Repeats) (deep : Option Bool) :
    Alike BuiltQuery.Repeats (select.build (some false) deep) (select.build (some false) deep) := by
  have selected : Alike Eq select.selectClause select.selectClause := .after _ fun _ => alike_pure rfl
  have target : Alike Eq select.fromClause select.fromClause := .after _ fun _ => .after _ fun _ => alike_pure rfl
  have grouped : Alike Eq select.groupClause select.groupClause := .after _ fun _ => alike_pure rfl
  have paged : Alike Eq (pagingClause select.paging) (pagingClause select.paging) := .after _ fun _ => alike_pure rfl
  refine select.settings.finish_repeats _ ((alike_require _ _ _).bind fun _ _ _ => Clause.assemble_repeats ?_) deep
  simp only [List.forall_mem_append, List.forall_mem_cons]
  exact ⟨⟨⟨Clause.repeats_with (Statement.repeats_ctes parts), Clause.repeats_plain selected, Clause.repeats_plain target,
      List.forall_mem_nil _⟩, Statement.repeats_joins parts _⟩, Clause.repeats_conditions _ _, Clause.repeats_optional grouped,
    Clause.repeats_conditions _ _, Clause.repeats_orderBy _ _, Clause.repeats_optional paged, List.forall_mem_nil _⟩

end Select

namespace Compound

variable {compound : Compound Child} (parts : ∀ child ∈ (Statement.compound compound).children, child.Repeats)
include parts

private theorem repeats_tableClause : Clause.Repeats compound.tableClause := by
  intro start
  have members : Alike (List.Forall₂ BuiltQuery.Repeats) (compound.members.mapM (·.query.build)) (compound.members.mapM (·.query.build)) :=
    alike_mapM (List.forall₂_same.mpr fun member inside => parts _ (List.mem_append_right _ (List.mem_map_of_mem inside)))
  have merged : Alike Fragment.Merged.Repeats (compound.renderMembers start) (compound.renderMembers start) :=
    (alike_require _ _ _).bind fun _ _ _ => members.bind fun _ _ all => alike_lift (Fragment.mergeFrom_repeats all start)
  refine merged.bind fun merged merged' both => .after _ fun opening => ?_
  rw [both.texts]
  exact .after _ fun name => alike_pure (.some ⟨rfl, both.values, both.next⟩)

theorem build_repeats (deep : Option Bool) :
    Alike BuiltQuery.Repeats (compound.build (some false) deep) (compound.build (some false) deep) := by
  have grouped : Alike Eq compound.groupClause compound.groupClause := by
    unfold groupClause
    split
    · exact alike_pure rfl
    · exact .after _ fun _ => alike_pure rfl
  refine compound.settings.finish_repeats _ ((alike_require _ _ _).bind fun _ _ _ => (alike_require _ _ _).bind fun _ _ _ =>
    Clause.assemble_repeats ?_) deep
  simp only [List.forall_mem_append, List.forall_mem_cons]
  exact ⟨⟨Clause.repeats_with (Statement.repeats_ctes parts), repeats_tableClause parts, Clause.repeats_conditions _ _,
      Clause.repeats_optional grouped, Clause.repeats_conditions _ _, Clause.repeats_orderBy _ _, List.forall_mem_nil _⟩,
    List.forall_mem_map.mpr fun line _ => Clause.repeats_plain (alike_same line)⟩

end Compound

namespace Insert

variable {insert : Insert Child} (parts : ∀ child ∈ (Statement.insert insert).children, child.Repeats)
include parts

private theorem repeats_sourceClause {source : Child} (given : insert.source = some source) : Clause.Repeats (insert.sourceClause source) := by
  refine fun start => .after _ fun target => .after _ fun columns => ?_
  have repeats : source.Repeats := parts source (List.mem_append_right _ (Option.mem_toList.mpr given))
  refine Alike.bind repeats fun built built' both => (alike_lift both.toFragment).bind fun fragment fragment' both => ?_
  refine (alike_lift (both.renumber start)).bind fun inner inner' both => ?_
  rw [both.text]
  exact alike_pure (.some ⟨rfl, both.values, both.next⟩)

theorem build_repeats (deep : Option Bool) :
    Alike BuiltQuery.Repeats (insert.build (some false) deep) (insert.build (some false) deep) := by
  have row : Clause.Repeats insert.rowClause := fun start => .after _ fun target => .after _ fun columns =>
    .after _ fun _ => alike_pure (.some ⟨rfl, .refl _, rfl⟩)
  have rest {body : Clause} (repeats : body.Repeats) :
      ∀ clause ∈ [.with insert.ctes, body, .returning insert.settings.flavor insert.returning], Clause.Repeats clause := by
    simp only [List.forall_mem_cons]
    exact ⟨Clause.repeats_with (Statement.repeats_ctes parts), repeats, Clause.repeats_returning _ _, List.forall_mem_nil _⟩
  refine insert.settings.finish_repeats _ ((alike_require _ _ _).bind fun _ _ _ => ?_) deep
  split
  · have never : Alike (fun _ _ : Clause => False) (failFor Clause.queryLogger .insertRows) _ := alike_failFor _ _
    exact never.bind fun _ _ => False.elim
  · next source _ given => exact Clause.assemble_repeats (rest (repeats_sourceClause parts given))
  · exact Clause.assemble_repeats (rest row)

end Insert

namespace Update

variable {update : Update Child}

theorem build_repeats (parts : ∀ child ∈ (Statement.update update).children, child.Repeats) (deep : Option Bool) :
    Alike BuiltQuery.Repeats (update.build (some false) deep) (update.build (some false) deep) := by
  have target : Alike Eq update.targetClause update.targetClause := .after _ fun _ => .after _ fun _ => alike_pure rfl
  have assigned : Clause.Repeats update.setClause := fun start => .after _ fun _ => alike_pure (.some ⟨rfl, .refl _, rfl⟩)
  have origin : Alike Eq update.fromClause update.fromClause := by
    unfold fromClause
    cases update.origin with
    | none => exact alike_pure rfl
    | some origin => exact .after _ fun _ => .after _ fun _ => alike_pure rfl
  refine update.settings.finish_repeats _ ((alike_require _ _ _).bind fun _ _ _ => (alike_require _ _ _).bind fun _ _ _ =>
    (alike_require _ _ _).bind fun _ _ _ => Clause.assemble_repeats ?_) deep
  simp only [List.forall_mem_append, List.forall_mem_cons]
  exact ⟨⟨⟨Clause.repeats_with (Statement.repeats_ctes parts), Clause.repeats_plain target, assigned, Clause.repeats_optional origin,
    List.forall_mem_nil _⟩, Statement.repeats_joins parts _⟩, Clause.repeats_conditions _ _, Clause.repeats_returning _ _, List.forall_mem_nil _⟩

end Update

namespace Delete

variable {delete : Delete Child}

theorem build_repeats (parts : ∀ child ∈ (Statement.delete delete).children, child.Repeats) (deep : Option Bool) :
    Alike BuiltQuery.Repeats (delete.build (some false) deep) (delete.build (some false) deep) := by
  have target : Alike Eq delete.targetClause delete.targetClause := .after _ fun _ => .after _ fun _ => alike_pure rfl
  have others : Alike Eq delete.othersClause delete.othersClause := by
    unfold othersClause
    split
    · exact alike_pure rfl
    · exact .after _ fun _ => alike_pure rfl
  refine delete.settings.finish_repeats _ ((alike_require _ _ _).bind fun _ _ _ => Clause.assemble_repeats ?_) deep
  simp only [List.forall_mem_cons]
  exact ⟨Clause.repeats_with (Statement.repeats_ctes parts), Clause.repeats_plain target, Clause.repeats_optional others,
    Clause.repeats_conditions _ _, Clause.repeats_returning _ _, List.forall_mem_nil _⟩

end Delete

/-! ### Queries and conditions -/

theorem Statement.build_repeats {statement : Statement Child} (parts : ∀ child ∈ statement.children, child.Repeats) (deep : Option Bool) :
    Alike BuiltQuery.Repeats (statement.build (some false) deep) (statement.build (some false) deep) := by
  cases statement with
  | built query => exact alike_pure ⟨rfl, .refl _⟩
  | select s => exact s.build_repeats parts deep
  | compound s => exact s.build_repeats parts deep
  | insert s => exact s.build_repeats parts deep
  | update s => exact s.build_repeats parts deep
  | delete s => exact s.build_repeats parts deep
  | unbuildable => exact alike_throw _

namespace Query

private theorem repeats_toChild (query : Query) : query.toChild.Repeats := by
  induction query using Query.induct with
  | step statement parts =>
    rw [toChild, fold_of]
    refine Statement.build_repeats ?_ none
    rw [Statement.children_map]
    exact List.forall_mem_map.mpr parts

/-- Without compaction a query is built to one text over values with the same content, or fails with one failure, whenever it is built. -/
theorem repeats_build (query : Query) (deep : Option Bool) :
    Alike BuiltQuery.Repeats (query.build (some false) deep) (query.build (some false) deep) := by
  refine Statement.build_repeats ?_ deep
  rw [Statement.children_map]
  exact List.forall_mem_map.mpr fun part _ => part.repeats_toChild

end Query

/-- A condition becomes one predicate up to its labels, or fails with one failure, whenever it is asked for. -/
theorem Condition.repeats_toPredicate (condition : Condition) (values : List Value) :
    Alike Predicate.Repeats (condition.toPredicate values) (condition.toPredicate values) := by
  cases condition with
  | text t => exact Predicate.make_repeats t (.refl values)
  | predicate p =>
    rw [toPredicate]
    split
    · exact alike_pure ⟨rfl, .refl _⟩
    · exact alike_throw _
  | chain c =>
    refine (Predicate.make_repeats _ (.refl _)).bind fun p p' both => ?_
    rw [both.text]
    split
    · exact alike_pure both
    · exact alike_throw _
  | query q =>
    refine (q.repeats_build none).bind fun built built' both => (alike_lift both.toFragment).bind fun fragment fragment' read => ?_
    rw [read.unbind]
    exact .after _ fun text => Predicate.make_repeats _ both.values
  | unbuildable => exact alike_throw _
  | unusable => exact (Value.checkAll_repeats (.refl values)).bind fun _ _ _ => alike_throw _

end SqlCompose
