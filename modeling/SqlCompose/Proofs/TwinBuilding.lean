import Mathlib
import SqlCompose.Proofs.Twins

/-!
# Building twins

Statements that differ only in their values are built alike: to one text with as many values, or with one failure. Each part of a statement gives the same text on both sides, since it reads no more of its values than how many there are; `Statement.Twin.build_alike` puts the parts together for all kinds of statement. It speaks of building without compaction, for compaction compares values.
-/

namespace SqlCompose

open Build

/-! ### Values and conditions -/

namespace Value

variable {left right : List Value}

theorem copyAll_alike (length : left.length = right.length) :
    Alike (fun copies copies' : List Value => copies.length = copies'.length) (copyAll left) (copyAll right) :=
  fun _ _ => .ok (by rw [length_copyItems, length_copyItems, length])

theorem checkAll_alike (twin : ListTwin left right) : Alike ListTwin (checkAll left) (checkAll right) := by
  unfold checkAll
  rw [twin.faults]
  cases found : faultItems? right with
  | some error => exact alike_throw error
  | none =>
    refine fun _ _ => .ok ⟨?_, ?_⟩
    · rw [length_copyItems, length_copyItems, twin.length]
    · rw [faultItems?_copyItems, faultItems?_copyItems, twin.faults]

theorem ListTwin.append (twin : ListTwin left right) {left' right' : List Value} (twin' : ListTwin left' right') :
    ListTwin (left ++ left') (right ++ right') :=
  ⟨by rw [List.length_append, List.length_append, twin.length, twin'.length],
    by rw [faultItems?_append, faultItems?_append, twin.faults, twin'.faults]⟩

end Value

namespace Predicate

theorem make_alike (text : Wording) {values values' : List Value} (twin : Value.ListTwin values values') :
    Alike Twin (make text values) (make text values') := by
  refine (Value.checkAll_alike twin).bind fun copies copies' both => ?_
  simp only [both.length]
  split
  · exact alike_pure ⟨rfl, both⟩
  · exact alike_throw _

theorem Twin.render {left right : Predicate} (twin : left.Twin right) (start : Int) :
    Outcome.Alike Numbered.Twin (left.render start) (right.render start) := by
  simp only [Predicate.render, twin.text]
  refine (Outcome.alike_same _).map ?_
  rintro bound _ rfl
  exact ⟨rfl, twin.values.length, rfl⟩

end Predicate

namespace Chain

variable {left right : Chain}

theorem Twin.isEmpty (twin : left.Twin right) : left.isEmpty = right.isEmpty := by
  obtain ⟨links⟩ := left
  obtain ⟨links'⟩ := right
  cases (twin : List.Forall₂ LinkTwin links links') <;> rfl

theorem LinkTwin.laterLink {link link' : Connective × Predicate} (twin : LinkTwin link link') :
    laterLink link = laterLink link' := by
  rw [Chain.laterLink, Chain.laterLink, twin.connective, twin.predicate.text]

private theorem linkTexts_eq {links links' : List (Connective × Predicate)} (twins : List.Forall₂ LinkTwin links links') :
    linkTexts links = linkTexts links' := by
  have later : links.map laterLink = links'.map laterLink := by
    induction twins with
    | nil => rfl
    | cons next _ ih => rw [List.map_cons, List.map_cons, next.laterLink, ih]
  cases twins with
  | nil => rfl
  | cons here _ => rw [linkTexts, linkTexts, here.predicate.text, (List.cons.inj later).2]

theorem Twin.text (twin : left.Twin right) (newLine : Bool) : left.text newLine = right.text newLine := by
  rw [Chain.text, Chain.text, linkTexts_eq twin]

private theorem values_of_links {links links' : List (Connective × Predicate)} (twins : List.Forall₂ LinkTwin links links') :
    Value.ListTwin (links.flatMap (·.2.values)) (links'.flatMap (·.2.values)) := by
  induction twins with
  | nil => exact ⟨rfl, rfl⟩
  | cons here _ ih => exact here.predicate.values.append ih

theorem Twin.values (twin : left.Twin right) : Value.ListTwin left.values right.values :=
  values_of_links twin

theorem Twin.toPredicate (twin : left.Twin right) (newLine : Bool) :
    Alike Predicate.Twin (left.toPredicate newLine) (right.toPredicate newLine) := by
  unfold Chain.toPredicate
  rw [twin.text]
  exact Predicate.make_alike _ twin.values

theorem Twin.render (twin : left.Twin right) (start : Int) (newLine : Bool) :
    Alike Numbered.Twin (left.render start newLine) (right.render start newLine) := by
  unfold Chain.render
  rw [twin.isEmpty]
  split
  · exact alike_pure ⟨rfl, rfl, rfl⟩
  · exact (twin.toPredicate newLine).bind fun _ _ both => alike_lift (both.render start)

end Chain

theorem Restriction.Twin.render {left right : Restriction} (twin : left.Twin right) (start : Int) :
    Alike Numbered.Twin (left.render start) (right.render start) := by
  cases twin with
  | chain twin => exact Chain.Twin.render twin start true
  | predicate twin => exact alike_lift (twin.render start)
  | unusable _ => exact alike_throw _

/-! ### Fragments -/

theorem BuiltQuery.ofParts_alike (text : Value) {values values' : List Value} (length : values.length = values'.length) :
    Alike Twin (ofParts text values) (ofParts text values') :=
  (Value.copyAll_alike length).bind fun _ _ both => alike_pure ⟨rfl, both⟩

theorem BuiltQuery.make_alike (text : Text) {values values' : List Value} (length : values.length = values'.length) :
    Alike Twin (make text values) (make text values') :=
  ofParts_alike (.text text) length

theorem BuiltQuery.Twin.toFragment {left right : BuiltQuery} (twin : left.Twin right) :
    Outcome.Alike Fragment.Twin left.toFragment right.toFragment := by
  have wording : left.wording = right.wording := by rw [BuiltQuery.wording, BuiltQuery.wording, twin.text]
  rw [BuiltQuery.toFragment, BuiltQuery.toFragment, wording]
  refine (Outcome.alike_same right.wording).map ?_
  rintro wording _ rfl
  exact ⟨rfl, twin.length⟩

namespace Fragment

theorem Twin.renumber {left right : Fragment} (twin : left.Twin right) (start : Int) :
    Outcome.Alike Numbered.Twin (left.renumber start) (right.renumber start) := by
  simp only [Fragment.renumber, shiftedText, shiftedNumbers, misfit, twin.text, twin.length]
  refine (Outcome.alike_same _).bind ?_
  rintro indices _ rfl
  split
  · exact (Outcome.alike_same _).bind fun _ _ _ => .ok ⟨rfl, twin.length, rfl⟩
  · exact .error _

/-- Texts with values, and the index after the last. -/
structure Merged.Twin (left right : Merged) : Prop where
  texts : left.texts = right.texts
  length : left.values.length = right.values.length
  next : left.next = right.next

theorem mergeFrom_alike {queries queries' : List BuiltQuery} (twins : List.Forall₂ BuiltQuery.Twin queries queries')
    (start : Int) : Outcome.Alike Merged.Twin (mergeFrom BuiltQuery.toFragment start queries)
      (mergeFrom BuiltQuery.toFragment start queries') := by
  induction twins generalizing start with
  | nil => exact .ok ⟨rfl, rfl, rfl⟩
  | cons here _ ih =>
    refine here.toFragment.bind fun source source' twin => (twin.renumber start).bind fun first first' numbered => ?_
    rw [numbered.next]
    refine (ih first'.next).bind fun others others' rest => .ok ⟨?_, ?_, rest.next⟩
    · rw [numbered.text, rest.texts]
    · rw [List.length_append, List.length_append, numbered.length, rest.length]

end Fragment

/-! ### Clauses -/

namespace Clause

/-- Clauses that are rendered alike from every start: both left out, or both with one text. -/
def Twin (left right : Clause) : Prop :=
  ∀ start, Alike (Option.Rel Numbered.Twin) (left start) (right start)

theorem twin_plain {text text' : Build Text} (alike : Alike Eq text text') : Twin (plain text) (plain text') := by
  refine fun start => alike.bind ?_
  rintro written _ rfl
  exact alike_pure (.some ⟨rfl, rfl, rfl⟩)

theorem twin_optional {text text' : Build (Option Text)} (alike : Alike Eq text text') :
    Twin (optional text) (optional text') := by
  refine fun start => alike.bind ?_
  rintro written _ rfl
  cases written with
  | none => exact alike_pure .none
  | some written => exact alike_pure (.some ⟨rfl, rfl, rfl⟩)

theorem twin_conditions (keyword : Text) {left right : Restriction} (twin : left.Twin right) :
    Twin (conditions keyword left) (conditions keyword right) := by
  refine fun start => (twin.render start).bind fun rendered rendered' both => ?_
  rw [both.text]
  split
  · exact alike_pure .none
  · exact alike_pure (.some ⟨rfl, both.length, both.next⟩)

theorem sequence_alike {clauses clauses' : List Clause} (twins : List.Forall₂ Twin clauses clauses') (start : Int) :
    Alike (fun lines lines' => lines.1 = lines'.1 ∧ lines.2.length = lines'.2.length) (sequence start clauses)
      (sequence start clauses') := by
  induction twins generalizing start with
  | nil => exact alike_pure ⟨rfl, rfl⟩
  | cons here _ ih =>
    refine (here start).bind fun outcome outcome' both => ?_
    cases both with
    | none => exact ih start
    | @some numbered numbered' both =>
      simp only [both.next]
      refine (ih numbered'.next).bind ?_
      rintro ⟨texts, values⟩ ⟨_, values'⟩ ⟨rfl, length⟩
      refine alike_pure ⟨?_, ?_⟩
      · rw [both.text]
      · rw [List.length_append, List.length_append, both.length, length]

theorem assemble_alike {clauses clauses' : List Clause} (twins : List.Forall₂ Twin clauses clauses') :
    Alike Fragment.Twin (assemble clauses) (assemble clauses') := by
  refine (sequence_alike twins 1).bind ?_
  rintro ⟨texts, values⟩ ⟨_, values'⟩ ⟨rfl, length⟩
  exact alike_pure ⟨rfl, length⟩

theorem twin_returning (flavor : Flavor) (fields : List Field) : Twin (returning flavor fields) (returning flavor fields) := by
  refine twin_optional ?_
  split
  · exact alike_pure rfl
  · exact .after _ fun _ => alike_pure rfl

theorem twin_orderBy (flavor : Flavor) (orders : List OrderBy) : Twin (orderBy flavor orders) (orderBy flavor orders) := by
  refine twin_optional ?_
  split
  · exact alike_pure rfl
  · exact .after _ fun _ => alike_pure rfl

end Clause

/-! ### Common table expressions and joins -/

namespace Cte

theorem Twin.build {left right : Cte Child} (twin : left.Twin Child.Twin right) :
    Alike BuiltQuery.Twin left.build right.build := by
  obtain ⟨name, query, recursive⟩ := left
  obtain ⟨name', query', recursive'⟩ := right
  obtain ⟨rfl, queries, rfl⟩ := twin
  refine (alike_require _ _ _).bind fun _ _ _ => ?_
  cases queries with
  | none => exact .after _ fun _ => alike_failFor _ _
  | some child =>
    refine child.build.bind fun built built' both => .after _ fun name => ?_
    rw [both.text]
    exact .after _ fun body => BuiltQuery.make_alike _ both.length

theorem buildAll_alike {left right : List (Cte Child)} (twins : List.Forall₂ (Twin Child.Twin) left right) :
    Alike BuiltQuery.Twin (buildAll left) (buildAll right) := by
  have same : left.isEmpty = right.isEmpty := by cases twins <;> rfl
  unfold buildAll
  rw [same]
  split
  · exact BuiltQuery.make_alike _ rfl
  · refine (alike_mapM (twins.imp fun _ _ twin => twin.build)).bind fun built built' both => ?_
    refine (alike_lift (Fragment.mergeFrom_alike both 1)).bind fun merged merged' both => ?_
    refine (alike_log _ _ _ _).bind fun _ _ _ => ?_
    rw [both.texts]
    exact BuiltQuery.make_alike _ both.length

end Cte

theorem Clause.twin_with {left right : Option (List (Cte Child))}
    (twin : Option.Rel (List.Forall₂ (Cte.Twin Child.Twin)) left right) : Twin (Clause.with left) (Clause.with right) := by
  intro start
  cases twin with
  | none => exact alike_pure .none
  | some twins =>
    refine (Cte.buildAll_alike twins).bind fun built built' both => ?_
    have wording : built.wording = built'.wording := by rw [BuiltQuery.wording, BuiltQuery.wording, both.text]
    rw [wording]
    refine .after _ fun text => ?_
    dsimp only
    split
    · exact alike_pure .none
    · exact alike_pure (.some ⟨rfl, both.length, by rw [both.length]⟩)

namespace Join

theorem renderSource_alike (flavor : Flavor) {left right : JoinSource Child} (twin : left.Twin Child.Twin right) (start : Int) :
    Alike Numbered.Twin (renderSource flavor left start) (renderSource flavor right start) := by
  cases twin with
  | table reference name => exact .after _ fun table => .after _ fun name => alike_pure ⟨rfl, rfl, rfl⟩
  | subquery child name =>
    refine child.build.bind fun built built' both => (alike_lift both.toFragment).bind fun fragment fragment' both => ?_
    refine (alike_lift (both.renumber start)).bind fun inner inner' both => .after _ fun name => alike_pure ?_
    exact ⟨by rw [both.text], both.length, both.next⟩

theorem Twin.render (flavor : Flavor) {left right : Join Child} (twin : left.Twin Child.Twin right) :
    Clause.Twin (left.render flavor) (right.render flavor) := by
  obtain ⟨kind, source, condition⟩ := left
  obtain ⟨kind', source', condition'⟩ := right
  obtain ⟨rfl, sources, conditions⟩ := twin
  refine fun start => (renderSource_alike flavor sources start).bind fun joined joined' both => ?_
  cases conditions with
  | none => exact alike_pure (.some ⟨by simp only [both.text], both.length, both.next⟩)
  | @some predicate predicate' condition =>
    rw [both.next]
    refine (alike_lift (condition.render joined'.next)).bind fun _ _ rendered => alike_pure (.some ⟨?_, ?_, ?_⟩)
    · simp only [both.text, rendered.text]
    · simp only [List.length_append, both.length, rendered.length]
    · exact rendered.next

private theorem forall₂_render (flavor : Flavor) {left right : List (Join Child)}
    (twins : List.Forall₂ (Twin Child.Twin) left right) :
    List.Forall₂ Clause.Twin (left.map (render flavor)) (right.map (render flavor)) :=
  List.forall₂_map_left_iff.mpr (List.forall₂_map_right_iff.mpr (twins.imp fun _ _ twin => twin.render flavor))

end Join

/-! ### Kinds of statement -/

theorem Settings.finish_alike (settings : Settings) (kind : StatementKind) {render render' : Build Fragment}
    (alike : Alike Fragment.Twin render render') (deep : Option Bool) :
    Alike BuiltQuery.Twin (settings.finish kind render (some false) deep) (settings.finish kind render' (some false) deep) := by
  refine alike.bind fun fragment fragment' both => ?_
  rw [both.text]
  refine .after _ fun text => ?_
  have final : Alike Fragment.Twin (pure ⟨.plain text, fragment.values⟩) (pure ⟨.plain text, fragment'.values⟩) :=
    alike_pure ⟨rfl, both.length⟩
  refine final.bind fun finished finished' both => (alike_log _ _ _ _).bind fun _ _ _ => ?_
  rw [both.text]
  exact BuiltQuery.ofParts_alike _ both.length

namespace Select

variable {left right : Select Child} (twin : left.Twin Child.Twin right)
include twin

private theorem selected_eq : left.selected = right.selected := by
  rw [selected, selected, twin.fields, twin.settings]

private theorem selectClause_alike : Alike Eq left.selectClause right.selectClause := by
  unfold selectClause
  rw [twin.distinct, selected_eq twin]
  exact .after _ fun _ => alike_pure rfl

private theorem fromClause_alike : Alike Eq left.fromClause right.fromClause := by
  unfold fromClause
  rw [twin.settings, twin.table, twin.name]
  exact .after _ fun _ => .after _ fun _ => alike_pure rfl

private theorem groupClause_alike : Alike Eq left.groupClause right.groupClause := by
  unfold groupClause grouping
  rw [twin.settings, twin.groups, twin.groupBySelected, selected_eq twin]
  exact .after _ fun _ => alike_pure rfl

theorem Twin.build (deep : Option Bool) : Alike BuiltQuery.Twin (left.build (some false) deep) (right.build (some false) deep) := by
  unfold Select.build render
  rw [twin.settings, twin.table, twin.orders, twin.paging]
  refine right.settings.finish_alike _ ?_ deep
  refine (alike_require _ _ _).bind fun _ _ _ => Clause.assemble_alike (List.rel_append (List.rel_append ?_ ?_) ?_)
  · exact .cons (Clause.twin_with twin.ctes) (.cons (Clause.twin_plain (selectClause_alike twin))
      (.cons (Clause.twin_plain (fromClause_alike twin)) .nil))
  · exact Join.forall₂_render _ twin.joins
  · exact .cons (Clause.twin_conditions "WHERE" twin.filter) (.cons (Clause.twin_optional (groupClause_alike twin))
      (.cons (Clause.twin_conditions "HAVING" twin.having) (.cons (Clause.twin_orderBy _ _)
        (.cons (Clause.twin_optional (.after _ fun _ => alike_pure rfl)) .nil))))

end Select

namespace Compound

variable {left right : Compound Child} (twin : left.Twin Child.Twin right)
include twin

private theorem isEmpty_eq : left.members.isEmpty = right.members.isEmpty := by
  have members := twin.members
  cases given : left.members with
  | nil =>
    rw [given] at members
    rw [List.forall₂_nil_left_iff.mp members]
  | cons member rest =>
    rw [given] at members
    obtain ⟨member', rest', -, -, other⟩ := List.forall₂_cons_left_iff.mp members
    rw [other]
    rfl

private theorem operators_eq : left.operators = right.operators := by
  have same := List.forall₂_map_left_iff.mpr (List.forall₂_map_right_iff.mpr (twin.members.imp fun _ _ both => both.operator))
  rwa [List.forall₂_eq_eq_eq] at same

private theorem renderMembers_alike (start : Int) :
    Alike Fragment.Merged.Twin (left.renderMembers start) (right.renderMembers start) := by
  unfold renderMembers
  rw [isEmpty_eq twin]
  refine (alike_require _ _ _).bind fun _ _ _ => ?_
  have members : Alike (List.Forall₂ BuiltQuery.Twin) (left.members.mapM (·.query.build))
      (right.members.mapM (·.query.build)) := alike_mapM (twin.members.imp fun _ _ member => member.query.build)
  exact members.bind fun built built' both => alike_lift (Fragment.mergeFrom_alike both start)

private theorem opening_eq : left.opening = right.opening := by
  rw [opening, opening, twin.fields, twin.settings]

private theorem twin_tableClause : Clause.Twin left.tableClause right.tableClause := by
  refine fun start => (renderMembers_alike twin start).bind fun merged merged' both => ?_
  rw [opening_eq twin]
  refine .after _ fun opening => ?_
  rw [operators_eq twin, twin.name, both.texts]
  exact .after _ fun name => alike_pure (.some ⟨rfl, both.length, both.next⟩)

private theorem groupClause_alike : Alike Eq left.groupClause right.groupClause := by
  unfold groupClause
  rw [twin.groups, twin.settings]
  split
  · exact alike_pure rfl
  · exact .after _ fun _ => alike_pure rfl

theorem Twin.build (deep : Option Bool) : Alike BuiltQuery.Twin (left.build (some false) deep) (right.build (some false) deep) := by
  unfold Compound.build render
  rw [twin.settings, isEmpty_eq twin, twin.name, twin.orders, twin.paging]
  refine right.settings.finish_alike _ ?_ deep
  refine (alike_require _ _ _).bind fun _ _ _ => (alike_require _ _ _).bind fun _ _ _ =>
    Clause.assemble_alike (List.rel_append ?_ ?_)
  · exact .cons (Clause.twin_with twin.ctes) (.cons (twin_tableClause twin)
      (.cons (Clause.twin_conditions "WHERE" twin.filter) (.cons (Clause.twin_optional (groupClause_alike twin))
        (.cons (Clause.twin_conditions "HAVING" twin.having) (.cons (Clause.twin_orderBy _ _) .nil)))))
  · exact List.forall₂_map_left_iff.mpr (List.forall₂_map_right_iff.mpr (List.forall₂_same.mpr fun line _ =>
      Clause.twin_plain (alike_same line)))

/-- The members without a table around them are built alike. -/
theorem Twin.buildMembers : Alike BuiltQuery.Twin left.buildMembers right.buildMembers := by
  refine (Clause.twin_with twin.ctes 1).bind fun head head' both => ?_
  have start : (head.map (·.next)).getD 1 = (head'.map (·.next)).getD 1 := by
    cases both with
    | none => rfl
    | some both => exact both.next
  rw [start]
  refine (renderMembers_alike twin _).bind fun merged merged' members => ?_
  rw [operators_eq twin, members.texts, twin.settings]
  cases both with
  | none => exact .after _ fun text => BuiltQuery.make_alike text members.length
  | some both =>
    dsimp only
    rw [both.text]
    refine .after _ fun text => BuiltQuery.make_alike text ?_
    rw [List.length_append, List.length_append, both.length, members.length]

end Compound

namespace Insert

variable {left right : Insert Child} (twin : left.Twin Child.Twin right)
include twin

private theorem twin_rowClause : Clause.Twin left.rowClause right.rowClause := by
  have length : left.rows.length = right.rows.length := by simpa using congrArg List.length twin.rows
  intro start
  unfold rowClause
  rw [twin.settings, twin.table, twin.rows, length]
  refine .after _ fun target => .after _ fun columns => .after _ fun _ => alike_pure (.some ⟨rfl, ?_, rfl⟩)
  simpa using length

private theorem twin_sourceClause {source source' : Child} (both : source.Twin source') :
    Clause.Twin (left.sourceClause source) (right.sourceClause source') := by
  intro start
  unfold sourceClause targetColumns
  rw [twin.settings, twin.table, twin.columns, both.columns]
  refine .after _ fun target => .after _ fun columns => both.build.bind fun built built' both => ?_
  refine (alike_lift both.toFragment).bind fun fragment fragment' both => ?_
  refine (alike_lift (both.renumber start)).bind fun inner inner' both => ?_
  rw [both.text]
  exact alike_pure (.some ⟨rfl, both.length, both.next⟩)

theorem Twin.build (deep : Option Bool) : Alike BuiltQuery.Twin (left.build (some false) deep) (right.build (some false) deep) := by
  have rest {clause clause' : Clause} (both : clause.Twin clause') :
      Alike Fragment.Twin (Clause.assemble [.with left.ctes, clause, .returning left.settings.flavor left.returning])
        (Clause.assemble [.with right.ctes, clause', .returning right.settings.flavor right.returning]) := by
    rw [twin.settings, twin.returning]
    exact Clause.assemble_alike (.cons (Clause.twin_with twin.ctes) (.cons both (.cons (Clause.twin_returning _ _) .nil)))
  have rendered : Alike Fragment.Twin left.render right.render := by
    unfold render
    rw [twin.table]
    refine (alike_require _ _ _).bind fun _ _ _ => ?_
    obtain ⟨settings, ctes, table, rows, columns, source, returning⟩ := left
    obtain ⟨settings', ctes', table', rows', columns', source', returning'⟩ := right
    cases rows with
    | nil =>
      cases rows' with
      | nil =>
        cases (twin.source : Option.Rel Child.Twin source source') with
        | none => exact alike_failFor _ _
        | some both => exact rest (twin_sourceClause twin both)
      | cons row more => cases twin.rows
    | cons row more =>
      cases rows' with
      | nil => cases twin.rows
      | cons row' more' => exact rest (twin_rowClause twin)
  unfold Insert.build
  rw [twin.settings]
  exact right.settings.finish_alike _ rendered deep

end Insert

namespace Update

/-- Assignments to the same columns give the same texts, and bind as many values. -/
theorem assign_alike (flavor : Flavor) {left right : List (Value × Assigned)} (twins : List.Forall₂ AssignmentTwin left right)
    (start : Int) :
    Outcome.Alike (fun (lines lines' : List Text × List Value) => lines.1 = lines'.1 ∧ lines.2.length = lines'.2.length)
      (assign flavor start left) (assign flavor start right) := by
  induction twins generalizing start with
  | nil => exact .ok ⟨rfl, rfl⟩
  | @cons assignment assignment' rest rest' here _ ih =>
    obtain ⟨column, assigned⟩ := assignment
    obtain ⟨column', assigned'⟩ := assignment'
    obtain ⟨rfl, twin⟩ := here
    refine (Outcome.alike_same _).bind ?_
    rintro quoted _ rfl
    cases twin with
    | expression expression =>
      refine (Outcome.alike_same _).bind ?_
      rintro text _ rfl
      refine (ih start).bind ?_
      rintro ⟨texts, values⟩ ⟨_, values'⟩ ⟨rfl, length⟩
      exact .ok ⟨rfl, length⟩
    | value value value' =>
      refine (Outcome.alike_same _).bind fun _ _ _ => (ih (start + 1)).bind ?_
      rintro ⟨texts, values⟩ ⟨_, values'⟩ ⟨rfl, length⟩
      exact .ok ⟨rfl, congrArg (· + 1) length⟩

variable {left right : Update Child} (twin : left.Twin Child.Twin right)
include twin

private theorem twin_setClause : Clause.Twin left.setClause right.setClause := by
  intro start
  unfold setClause
  rw [twin.settings]
  refine (alike_lift (assign_alike _ twin.assignments start)).bind ?_
  rintro ⟨texts, values⟩ ⟨_, values'⟩ ⟨rfl, length⟩
  exact alike_pure (.some ⟨rfl, length, congrArg (fun count : Nat => start + count) length⟩)

private theorem targetClause_alike : Alike Eq left.targetClause right.targetClause := by
  unfold targetClause
  rw [twin.settings, twin.table, twin.name]
  exact .after _ fun _ => .after _ fun _ => alike_pure rfl

private theorem fromClause_alike : Alike Eq left.fromClause right.fromClause := by
  unfold fromClause
  rw [twin.settings, twin.origin]
  cases right.origin with
  | none => exact alike_pure rfl
  | some origin => exact .after _ fun _ => .after _ fun _ => alike_pure rfl

theorem Twin.build (deep : Option Bool) : Alike BuiltQuery.Twin (left.build (some false) deep) (right.build (some false) deep) := by
  have assigns : left.assignments.isEmpty = right.assignments.isEmpty := by
    rw [Bool.eq_iff_iff, List.isEmpty_iff_length_eq_zero, List.isEmpty_iff_length_eq_zero, twin.assignments.length_eq]
  have joins : left.joins.isEmpty = right.joins.isEmpty := by
    rw [Bool.eq_iff_iff, List.isEmpty_iff_length_eq_zero, List.isEmpty_iff_length_eq_zero, twin.joins.length_eq]
  unfold Update.build render
  rw [twin.settings, twin.table, assigns, joins, twin.origin, twin.returning]
  refine right.settings.finish_alike _ ?_ deep
  refine (alike_require _ _ _).bind fun _ _ _ => (alike_require _ _ _).bind fun _ _ _ =>
    (alike_require _ _ _).bind fun _ _ _ => Clause.assemble_alike (List.rel_append (List.rel_append ?_ ?_) ?_)
  · exact .cons (Clause.twin_with twin.ctes) (.cons (Clause.twin_plain (targetClause_alike twin))
      (.cons (twin_setClause twin) (.cons (Clause.twin_optional (fromClause_alike twin)) .nil)))
  · exact Join.forall₂_render _ twin.joins
  · exact .cons (Clause.twin_conditions "WHERE" twin.filter) (.cons (Clause.twin_returning _ _) .nil)

end Update

namespace Delete

variable {left right : Delete Child} (twin : left.Twin Child.Twin right)
include twin

private theorem targetClause_alike : Alike Eq left.targetClause right.targetClause := by
  unfold targetClause
  rw [twin.settings, twin.table, twin.name]
  exact .after _ fun _ => .after _ fun _ => alike_pure rfl

private theorem othersClause_alike : Alike Eq left.othersClause right.othersClause := by
  unfold othersClause usedTables
  rw [twin.settings, twin.others]
  split
  · exact alike_pure rfl
  · exact .after _ fun _ => alike_pure rfl

theorem Twin.build (deep : Option Bool) : Alike BuiltQuery.Twin (left.build (some false) deep) (right.build (some false) deep) := by
  unfold Delete.build render
  rw [twin.settings, twin.table, twin.returning]
  refine right.settings.finish_alike _ ?_ deep
  refine (alike_require _ _ _).bind fun _ _ _ => Clause.assemble_alike ?_
  exact .cons (Clause.twin_with twin.ctes) (.cons (Clause.twin_plain (targetClause_alike twin))
    (.cons (Clause.twin_optional (othersClause_alike twin)) (.cons (Clause.twin_conditions "WHERE" twin.filter)
      (.cons (Clause.twin_returning _ _) .nil))))

end Delete

/-! ### Statements and queries -/

/-- Statements over twin children are built alike without compaction, whatever their kind. -/
theorem Statement.Twin.build {left right : Statement Child} (twin : left.Twin Child.Twin right) (deep : Option Bool) :
    Alike BuiltQuery.Twin (left.build (some false) deep) (right.build (some false) deep) := by
  cases twin with
  | built twin => exact alike_pure twin
  | select twin => exact twin.build deep
  | compound twin => exact twin.build deep
  | insert twin => exact twin.build deep
  | update twin => exact twin.build deep
  | delete twin => exact twin.build deep
  | unbuildable => exact alike_throw _

theorem Statement.Twin.columns {Q R : Type} {related : Q → R → Prop} {left : Statement Q} {right : Statement R}
    (twin : left.Twin related right) : left.columns = right.columns := by
  cases twin with
  | select twin => rw [Statement.columns, Statement.columns, twin.fields]
  | built _ | compound _ | insert _ | update _ | delete _ | unbuildable => rfl

/-- A statement over twin children is a twin child itself. -/
theorem Statement.Twin.toChild {left right : Statement Child} (twin : left.Twin Child.Twin right) :
    Child.Twin left.toChild right.toChild :=
  ⟨twin.build none, twin.columns⟩

end SqlCompose
