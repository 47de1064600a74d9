import Mathlib
import SqlCompose.Proofs.PlainObjects

/-!
# Clones

A clone is a new object. It shares no chain with anybody, and the columns of a clone of a statement on a table are clones as well. So it builds what the object builds that it was made from; and since the two sides are parted when it has been made, what is done on one side afterwards does not change what is built on the other.

A statement whose conditions have been replaced by something other than a chain cannot be cloned. The call fails, and nothing has come about.
-/

namespace SqlCompose

/-! ### Conditions that can be copied -/

/-- A chain can be copied, and so can what is a copy already. -/
def Restriction.Copyable : Restriction → Prop
  | chain _ => True
  | predicate _ => False
  | unusable _ copied => copied = true

/-- All conditions that an object holds can be copied. -/
def Object.Copyable : Object → Prop
  | .query q => ∀ restriction ∈ q.statement.restrictions, restriction.Copyable
  | _ => True

section Copying

variable {Q : Type} {checkValue : Value → Except Error Unit}

private theorem Restriction.checkCopy_cases {restriction : Restriction}
    (refused : ∀ value, restriction = .unusable value false → checkValue value = .error .attributeMissing) :
    (restriction.Copyable ∧ restriction.checkCopy checkValue = .ok ()) ∨ restriction.checkCopy checkValue = .error .attributeMissing := by
  cases restriction with
  | chain held => exact .inl ⟨trivial, rfl⟩
  | predicate p => exact .inr rfl
  | unusable value copied =>
    cases copied with
    | true => exact .inl ⟨rfl, rfl⟩
    | false => exact .inr (refused value rfl)

namespace Statement

variable {statement : Statement Q}

private theorem checkCopy_of_copyable (copyable : ∀ restriction ∈ statement.restrictions, restriction.Copyable)
    (checkValue : Value → Except Error Unit) : statement.checkCopy checkValue = .ok () := by
  have fine : ∀ restriction ∈ statement.restrictions, restriction.checkCopy checkValue = .ok () := by
    intro restriction member
    have fit := copyable restriction member
    cases restriction with
    | chain held => rfl
    | predicate p => exact fit.elim
    | unusable value copied => exact if_pos fit
  cases statement with
  | select s | compound s =>
    rw [checkCopy, fine s.filter (by simp [restrictions]), Outcome.bind_ok, fine s.having (by simp [restrictions])]
  | update s | delete s => exact fine s.filter (by simp [restrictions])
  | built _ | insert _ | unbuildable => rfl

private theorem checkCopy_of_uncopyable (uncopyable : ¬ ∀ restriction ∈ statement.restrictions, restriction.Copyable)
    (refused : ∀ value, .unusable value false ∈ statement.restrictions → checkValue value = .error .attributeMissing) :
    statement.checkCopy checkValue = .error .attributeMissing := by
  have either (restriction : Restriction) (member : restriction ∈ statement.restrictions) :=
    @Restriction.checkCopy_cases checkValue restriction fun value same => refused value (same ▸ member)
  cases statement with
  | select s | compound s =>
    rw [checkCopy]
    rcases either s.filter (by simp [restrictions]) with ⟨first, run⟩ | run
    · rw [run, Outcome.bind_ok]
      exact (either s.having (by simp [restrictions])).resolve_left fun second =>
        uncopyable (List.forall_mem_cons.mpr ⟨first, List.forall_mem_singleton.mpr second.1⟩)
    · rw [run, Outcome.bind_error]
  | update s | delete s =>
    exact (either s.filter (by simp [restrictions])).resolve_left fun only => uncopyable (List.forall_mem_singleton.mpr only.1)
  | built _ | insert _ | unbuildable => exact absurd (List.forall_mem_nil _) uncopyable

end Statement

end Copying

/-! ### New objects -/

namespace Session

/-- The conditions of what is under a label can be copied. -/
def Copyable (session : Session) (label : Label) : Prop :=
  ∀ object, session.held? label = some object → object.Copyable

private theorem runs_copy {session : Session} {query : Query} (copyable : (Object.query query).Copyable) :
    (Act.copy query).Runs session (.ok query.detached) session := by
  have checked : query.statement.checkCopy (session.checkCopy session.depth) = .ok () := Statement.checkCopy_of_copyable copyable _
  exact Act.runs_get.andThen ((Act.runs_lift.mpr ⟨checked.symm, rfl⟩).andThen (Act.runs_pure.mpr ⟨rfl, rfl⟩))

private theorem runs_copy_uncopyable {session : Session} {query : Query} (plain : query.Under Rules.plain)
    (uncopyable : ¬ (Object.query query).Copyable) : (Act.copy query).Runs session (.error .attributeMissing) session := by
  have refused (value : Value) (member : .unusable value false ∈ query.statement.restrictions) :
      session.checkCopy session.depth value = .error .attributeMissing := by
    obtain ⟨own, -⟩ := plain
    have alone : value.Plain := own.restrictions _ member
    cases value with
    | object label face => exact (alone.self label face rfl).elim
    | _ => rfl
  have checked := Statement.checkCopy_of_uncopyable uncopyable refused
  exact Act.runs_get.andThen (Act.runs_lift.mpr ⟨checked.symm, rfl⟩).orFail

/-- The session with a new object. -/
def added (session : Session) (object : Object) : Session :=
  ({ session with trace := { session.trace with nextLabel := session.trace.nextLabel + 1 } } : Session).put session.trace.nextLabel object

theorem runs_new (session : Session) (object : Object) :
    (Act.new object).Runs session (.ok (.object session.trace.nextLabel (object.face id))) (session.added object) := by
  have numbered : (Act.build Build.freshLabel).Runs session (.ok session.trace.nextLabel)
      { session with trace := { session.trace with nextLabel := session.trace.nextLabel + 1 } } := Act.runs_build.mpr ⟨_, rfl, rfl⟩
  exact numbered.andThen ((Act.runs_put.mpr ⟨rfl, rfl⟩).andThen (Act.runs_pure.mpr ⟨rfl, rfl⟩))

theorem runs_newResult (session : Session) (object : Object) :
    (Act.newResult object).Runs session (.ok (.value (.object session.trace.nextLabel (object.face id)))) (session.added object) :=
  (runs_new session object).andThen (Act.runs_pure.mpr ⟨rfl, rfl⟩)

theorem stored?_added (session : Session) (object : Object) (label : Label) :
    (session.added object).stored? label = if label = session.trace.nextLabel then some object else session.stored? label :=
  lookup_putEntry _ label object session.objects

/-- What has been made is as it was in another session, and more may have been made. -/
structure Precedes (session after : Session) : Prop where
  grown : session.trace.nextLabel ≤ after.trace.nextLabel
  kept : ∀ label < session.trace.nextLabel, after.stored? label = session.stored? label

theorem Precedes.refl (session : Session) : session.Precedes session :=
  ⟨le_rfl, fun _ _ => rfl⟩

theorem Precedes.trans {session between after : Session} (first : session.Precedes between) (second : between.Precedes after) :
    session.Precedes after :=
  ⟨first.grown.trans second.grown, fun label made => (second.kept label (made.trans_le first.grown)).trans (first.kept label made)⟩

theorem precedes_added (session : Session) (object : Object) : session.Precedes (session.added object) :=
  ⟨Nat.le_succ _, fun label made => (stored?_added session object label).trans (if_neg made.ne)⟩

/-- A label that has been given out since another session was left. -/
def MadeSince (first after : Session) (label : Label) : Prop :=
  first.trace.nextLabel ≤ label ∧ label < after.trace.nextLabel

/-- What has come about since another session was left: new objects, which refer only to such objects. -/
structure Extends (start session : Session) : Prop extends start.Precedes session where
  stored : ∀ label object, session.stored? label = some object → label < session.trace.nextLabel
  closed : ∀ label object, start.trace.nextLabel ≤ label → session.stored? label = some object → object.Under (Rules.referring (start.MadeSince session))
  defaults : session.defaults = start.defaults

variable {start session after : Session}

theorem extends_self (stored : ∀ label object, start.stored? label = some object → label < start.trace.nextLabel) : start.Extends start :=
  ⟨.refl start, stored, fun label object made given => absurd (stored label object given) (Nat.not_lt.mpr made), rfl⟩

theorem Extends.added (extended : start.Extends session) {object : Object} (under : object.Under (Rules.referring (start.MadeSince session))) :
    start.Extends (session.added object) := by
  have more : (Rules.referring (start.MadeSince session)).Implies (Rules.referring (start.MadeSince (session.added object))) :=
    Rules.referring_implies fun _ given => ⟨given.1, given.2.trans (Nat.lt_succ_self _)⟩
  refine ⟨extended.toPrecedes.trans (precedes_added session object), fun label other given => ?_, fun label other made given => ?_, extended.defaults⟩
  · rw [stored?_added] at given
    split at given
    · next same => exact same ▸ Nat.lt_succ_self _
    · exact (extended.stored label other given).trans (Nat.lt_succ_self _)
  · rw [stored?_added] at given
    split at given
    · cases given
      exact under.mono more
    · exact (extended.closed label other made given).mono more

/-! ### Clones of columns -/

/-- A value refers to the clone of a column. -/
structure Clones (start session : Session) (value copy : Value) (column : Column) : Prop where
  given : start.IsColumn value column
  made : session.IsColumn copy column
  since : copy.Refers (start.MadeSince session)

theorem IsColumn.precedes {value : Value} {column : Column} (found : session.IsColumn value column) (precedes : session.Precedes after)
    (stored : ∀ label object, session.stored? label = some object → label < session.trace.nextLabel) : after.IsColumn value column := by
  obtain ⟨label, face, rfl, given, plain⟩ := found
  exact ⟨label, face, rfl, (precedes.kept label (stored label _ given)).trans given, plain⟩

theorem Clones.precedes {value copy : Value} {column : Column} (clones : start.Clones session value copy column) (precedes : session.Precedes after)
    (stored : ∀ label object, session.stored? label = some object → label < session.trace.nextLabel) : start.Clones after value copy column :=
  ⟨clones.given, clones.made.precedes precedes stored, clones.since.mono fun _ since => ⟨since.1, since.2.trans_le precedes.grown⟩⟩

/-- A column without objects refers to nothing, whatever is allowed. -/
theorem column_referring {column : Column} (plain : (Object.column column).Under Rules.plain) (allowed : Label → Prop) :
    (Object.column column).Under (Rules.referring allowed) :=
  fun value member => Value.Refers.mono (plain value member) fun _ => False.elim

theorem runs_cloneColumn (extended : start.Extends session) (bounded : ∀ label object, start.stored? label = some object → label < start.trace.nextLabel)
    {value : Value} {column : Column} (found : start.IsColumn value column) (depth : Nat) :
    ∃ copy after, (cloneWithin (depth + 1) value).Runs session (.ok copy) after ∧ start.Extends after ∧ session.Precedes after ∧
      start.Clones after value copy column := by
  obtain ⟨label, face, rfl, stored, plain⟩ := found.precedes extended.toPrecedes bounded
  have held : session.held? label = some (.column column) := by
    rw [held?, stored]
    rfl
  have shown : (Act.object? (.object label face)).Runs session (.ok (some (label, .column column))) session :=
    (Act.runs_object (object?_of_plain held plain)).andThen (Act.runs_pure.mpr ⟨rfl, rfl⟩)
  refine ⟨_, _, shown.andThen (runs_new session (.column column)), extended.added (column_referring plain _), precedes_added _ _, found, ?_, ?_⟩
  · exact ⟨_, _, rfl, (stored?_added _ _ _).trans (if_pos rfl), plain⟩
  · refine List.forall_mem_singleton.mpr fun _ _ same => ?_
    cases same
    exact ⟨extended.grown, Nat.lt_succ_self _⟩

/-- Copies that are made one after another stay what they are. -/
theorem runs_copies {α β : Type} {copy : α → Act β} {copied : Session → α → β → Prop}
    (kept : ∀ {session after : Session}, start.Extends session → session.Precedes after → ∀ {item result}, copied session item result →
      copied after item result) {items : List α}
    (each : ∀ {session : Session}, start.Extends session → ∀ item ∈ items, ∃ result after, (copy item).Runs session (.ok result) after ∧
      start.Extends after ∧ session.Precedes after ∧ copied after item result) (extended : start.Extends session) :
    ∃ results after, (items.mapM copy).Runs session (.ok results) after ∧ start.Extends after ∧ session.Precedes after ∧
      List.Forall₂ (copied after) items results := by
  induction items generalizing session with
  | nil => exact ⟨[], session, rfl, extended, .refl session, .nil⟩
  | cons item items ih =>
    obtain ⟨result, between, here, extended', precedes, good⟩ := each extended item List.mem_cons_self
    obtain ⟨results, after, there, extended'', precedes', all⟩ :=
      ih (fun extended item member => each extended item (List.mem_cons_of_mem _ member)) extended'
    refine ⟨result :: results, after, ?_, extended'', precedes.trans precedes', .cons (kept extended' precedes' good) all⟩
    rw [List.mapM_cons]
    exact here.andThen (there.andThen (Act.runs_pure.mpr ⟨rfl, rfl⟩))

/-- The statement on a table with clones of its columns. -/
structure ClonesAll (start session : Session) (t copy : TableStatement Value) : Prop where
  names : copy.names = t.names
  since : ∀ value ∈ copy.columns, ∃ column, session.IsColumn value column ∧ value.Refers (start.MadeSince session)
  same : t.mapColumns start.columnOf = copy.mapColumns session.columnOf

private theorem clones_same {values copies : List Value}
    (clones : List.Forall₂ (fun value copy => ∃ column, start.Clones session value copy column) values copies) :
    (∀ value ∈ copies, ∃ column, session.IsColumn value column ∧ value.Refers (start.MadeSince session)) ∧
      values.map start.columnOf = copies.map session.columnOf := by
  induction clones with
  | nil => exact ⟨forall_nothing, rfl⟩
  | cons here _ ih =>
    obtain ⟨column, here⟩ := here
    refine ⟨List.forall_mem_cons.mpr ⟨⟨column, here.made, here.since⟩, ih.1⟩, ?_⟩
    rw [List.map_cons, List.map_cons, here.given.columnOf_eq, here.made.columnOf_eq, ih.2]

/-- Copies of a group of columns, under the name of the group. -/
private def GroupCopied (start session : Session) (group copy : Value × List Value) : Prop :=
  copy.1 = group.1 ∧ List.Forall₂ (fun value copy => ∃ column, start.Clones session value copy column) group.2 copy.2

private theorem keptGroup (kept : ∀ {session after : Session}, start.Extends session → session.Precedes after → ∀ {value copy : Value},
      (∃ column, start.Clones session value copy column) → ∃ column, start.Clones after value copy column)
    {session after : Session} (extended : start.Extends session) (precedes : session.Precedes after) {group copy : Value × List Value}
    (copied : GroupCopied start session group copy) : GroupCopied start after group copy :=
  ⟨copied.1, copied.2.imp fun _ _ => kept extended precedes⟩

private theorem runs_group {copyAll : List Value → Act (List Value)} {group : Value × List Value}
    (run : ∃ copies after, (copyAll group.2).Runs session (.ok copies) after ∧ start.Extends after ∧ session.Precedes after ∧
      List.Forall₂ (fun value copy => ∃ column, start.Clones after value copy column) group.2 copies) :
    ∃ copy after, (do return (group.1, ← copyAll group.2) : Act (Value × List Value)).Runs session (.ok copy) after ∧ start.Extends after ∧
      session.Precedes after ∧ GroupCopied start after group copy := by
  obtain ⟨copies, after, run, extended, precedes, clones⟩ := run
  exact ⟨(group.1, copies), after, run.andThen (Act.runs_pure.mpr ⟨rfl, rfl⟩), extended, precedes, rfl, clones⟩

private theorem groups_same {groups copies : List (Value × List Value)} (copied : List.Forall₂ (GroupCopied start session) groups copies) :
    copies.map (·.1) = groups.map (·.1) ∧
      (∀ value ∈ copies.flatMap (·.2), ∃ column, session.IsColumn value column ∧ value.Refers (start.MadeSince session)) ∧
      (groups.map fun group => (group.1, group.2.map start.columnOf)) = copies.map fun group => (group.1, group.2.map session.columnOf) := by
  induction copied with
  | nil => exact ⟨rfl, forall_nothing, rfl⟩
  | cons here _ ih =>
    obtain ⟨names, since, same⟩ := ih
    obtain ⟨hereSince, hereSame⟩ := clones_same here.2
    refine ⟨?_, ?_, ?_⟩
    · rw [List.map_cons, List.map_cons, here.1, names]
    · rw [List.flatMap_cons]
      exact List.forall_mem_append.mpr ⟨hereSince, since⟩
    · rw [List.map_cons, List.map_cons, here.1, hereSame, same]

theorem runs_cloneTable (extended : start.Extends session) (bounded : ∀ label object, start.stored? label = some object → label < start.trace.nextLabel)
    {t : TableStatement Value} (columns : ∀ value ∈ t.columns, ∃ column, start.IsColumn value column) (depth : Nat) :
    ∃ copy after, (t.mapColumnsM (cloneWithin (depth + 1))).Runs session (.ok copy) after ∧ start.Extends after ∧ start.ClonesAll after t copy := by
  have kept {session after : Session} (extended : start.Extends session) (precedes : session.Precedes after) {value copy : Value}
      (clones : ∃ column, start.Clones session value copy column) : ∃ column, start.Clones after value copy column :=
    clones.imp fun _ clones => clones.precedes precedes extended.stored
  have list {session : Session} (extended : start.Extends session) {values : List Value} (columns : ∀ value ∈ values, ∃ column, start.IsColumn value column) :=
    runs_copies kept (fun extended value member => by
      obtain ⟨column, found⟩ := columns value member
      obtain ⟨copy, after, run, further, precedes, clones⟩ := runs_cloneColumn extended bounded found depth
      exact ⟨copy, after, run, further, precedes, column, clones⟩) extended
  cases t with
  | create s =>
    have columns : ∀ value ∈ s.columns, ∃ column, start.IsColumn value column := columns
    obtain ⟨copies, after, run, further, -, clones⟩ := list extended columns
    obtain ⟨since, same⟩ := clones_same clones
    refine ⟨_, after, run.andThen (Act.runs_pure.mpr ⟨rfl, rfl⟩), further, rfl, since, ?_⟩
    rw [TableStatement.mapColumns_create, TableStatement.mapColumns_create, same]
  | alter s =>
    obtain ⟨additions, inside⟩ := List.forall_mem_append.mp columns
    obtain ⟨added, between, first, extended', -, clones⟩ := list extended additions
    obtain ⟨altered, after, second, extended'', precedes, groups⟩ := runs_copies (keptGroup kept)
      (fun extended group member => runs_group (list extended (List.forall_mem_flatMap.mp inside group member))) extended'
    obtain ⟨addedSince, addedSame⟩ := clones_same (clones.imp fun _ _ => kept extended' precedes)
    obtain ⟨alteredNames, alteredSince, alteredSame⟩ := groups_same groups
    refine ⟨_, after, first.andThen (second.andThen (Act.runs_pure.mpr ⟨rfl, rfl⟩)), extended'', ?_, ?_, ?_⟩
    · rw [TableStatement.names, TableStatement.names, alteredNames]
    · exact List.forall_mem_append.mpr ⟨addedSince, alteredSince⟩
    · rw [TableStatement.mapColumns_alter, TableStatement.mapColumns_alter, addedSame, alteredSame]
  | drop s => exact ⟨_, session, Act.runs_pure.mpr ⟨rfl, rfl⟩, extended, rfl, forall_nothing, rfl⟩

/-! ### Calls of `clone` -/

private theorem unread_clone (object : Object) : (objectAttributes object).lookup ("clone" : Text) = none := by
  cases object with
  | query q =>
    obtain ⟨statement⟩ := q
    cases statement <;> rfl
  | table t => cases t <;> rfl
  | _ => rfl

private theorem lookup_cloneQuery (label : Label) (query : Query) : (objectMethods label (.query query)).lookup ("clone" : Text) =
    some ⟨.none, fun _ => do Act.newResult (.query (← Act.copy query))⟩ := by
  refine (lookup_unshared label query (by decide)).trans ?_
  obtain ⟨statement⟩ := query
  cases statement <;> rfl

private theorem lookup_clone (label : Label) {object : Object} (alone : object.Alone) (other : ∀ query, object ≠ .query query) :
    (objectMethods label object).lookup ("clone" : Text) = some ⟨.none, fun _ => Act.newResult object.detached⟩ := by
  cases object with
  | query q => exact absurd rfl (other q)
  | table _ | queryMaker _ | tableMaker _ => exact alone.elim
  | _ => rfl

private theorem lookup_cloneTable (label : Label) (t : TableStatement Value) : (tableMethods label t).lookup ("clone" : Text) =
    some ⟨.none, fun _ => do
      let depth := (← get).depth
      Act.newResult (.table (← t.mapColumnsM (cloneWithin depth)))⟩ :=
  rfl

/-- Nobody else holds a part of a copy, so what others hold does not matter to it. -/
private theorem resolved_detached (object : Object) (find? : Label → Option Chain) : object.detached.resolved find? = object.detached := by
  cases object with
  | query q =>
    obtain ⟨statement⟩ := q
    have restriction (restriction : Restriction) : restriction.detached.resolved find? = restriction.detached := by cases restriction <;> rfl
    cases statement with
    | select s =>
      exact congrArg₂ (fun filter having => Object.query (.of (.select { s with filter, having }))) (restriction s.filter) (restriction s.having)
    | compound s =>
      exact congrArg₂ (fun filter having => Object.query (.of (.compound { s with filter, having }))) (restriction s.filter) (restriction s.having)
    | update s => exact congrArg (fun filter => Object.query (.of (.update { s with filter }))) (restriction s.filter)
    | delete s => exact congrArg (fun filter => Object.query (.of (.delete { s with filter }))) (restriction s.filter)
    | insert | built | unbuildable => rfl
  | _ => rfl

/-- A copy of an object that refers to nothing refers to nothing, and shares no chain. -/
theorem detached_under {object : Object} (alone : object.Alone) (plain : object.Under Rules.plain) (allowed : Label → Prop) :
    object.detached.Under (Rules.referring allowed) := by
  have weaker : (Rules.referring fun _ => False).Implies (Rules.referring allowed) := Rules.referring_implies fun _ => False.elim
  cases object with
  | query q => exact ⟨plain.1.detached.mono weaker, Custody.unfinished_detached plain.2⟩
  | chain c =>
    have under : c.Under (Rules.referring fun _ => False) := plain
    exact under.mono weaker
  | cte c =>
    have under : c.UnderAll (Rules.referring fun _ => False) := ⟨⟨plain.name, plain.recursive⟩, plain.query⟩
    exact under.mono weaker
  | ctes cs =>
    have under (c : Cte Query) (member : c ∈ cs) : c.UnderAll (Rules.referring fun _ => False) :=
      ⟨⟨(plain c member).name, (plain c member).recursive⟩, (plain c member).query⟩
    exact fun c member => (under c member).mono weaker
  | column c => exact column_referring plain allowed
  | table _ | queryMaker _ | tableMaker _ => exact alone.elim

private theorem plain_of_detached {object : Object} (alone : object.Alone) (under : object.detached.Under Rules.plain) :
    session.IsPlain object.detached := by
  cases object with
  | table _ | queryMaker _ | tableMaker _ => exact alone.elim
  | _ => exact under

/-- What a call of `clone` gives: a new object that builds what the object builds, and that refers to nothing but new objects. -/
structure Cloned (session : Session) (handle : Value) (copy : Label) (face : ObjectFace) (after : Session) : Prop where
  run : (invoke handle "clone" [] []).Runs session (.ok (.value (.object copy face))) after
  extended : session.Extends after
  since : session.MadeSince after copy
  plain : after.Plain copy
  builds : session.BuildsAs handle after (.object copy face)

section Cloning

variable {label : Label}

private theorem runs_clone {object : Object} (shown : session.object? label = some object) (alone : object.Alone) (copyable : object.Copyable)
    (face : ObjectFace) :
    (invoke (.object label face) "clone" [] []).Runs session
      (.ok (.value (.object session.trace.nextLabel (object.detached.face id)))) (session.added object.detached) := by
  cases object with
  | query query =>
    have run := run_invoke shown face (unread_clone _) (lookup_cloneQuery label query) [] []
    exact run.trans ((runs_copy copyable).andThen (runs_newResult session (.query query.detached)))
  | table _ | queryMaker _ | tableMaker _ => exact alone.elim
  | _ => exact (run_invoke shown face (unread_clone _) (lookup_clone label alone (by rintro _ ⟨⟩)) [] []).trans (runs_newResult session _)

/-- A plain object with conditions that cannot be copied cannot be cloned. -/
theorem Plain.uncloned (plain : session.Plain label) (uncopyable : ¬ session.Copyable label) (face : ObjectFace) :
    (invoke (.object label face) "clone" [] []).Runs session (.error .attributeMissing) session := by
  obtain ⟨object, held, plain⟩ := plain
  have unfit : ¬ object.Copyable := fun fit => uncopyable fun other held' => Option.some.inj (held.symm.trans held') ▸ fit
  cases object with
  | query query =>
    have shown := object?_of_plain held plain
    have run := run_invoke shown face (unread_clone _) (lookup_cloneQuery label query) [] []
    exact run.trans (runs_copy_uncopyable plain.1 unfit).orFail
  | _ => exact absurd trivial unfit

variable (bounded : ∀ label object, session.stored? label = some object → label < session.trace.nextLabel)
include bounded

private theorem cloned_alone {object : Object} (held : session.held? label = some object) (alone : object.Alone) (plain : object.Under Rules.plain)
    (copyable : object.Copyable) (face : ObjectFace) : ∃ copy copyFace after, session.Cloned (.object label face) copy copyFace after := by
  have shown := object?_of_plain held plain
  have under := detached_under alone plain
  have copyPlain : object.detached.Under Rules.plain := (under fun _ => False).mono (Rules.implies_lax _)
  have held' : (session.added object.detached).held? session.trace.nextLabel = some object.detached := by
    rw [held?, stored?_added, if_pos rfl]
    exact congrArg some (resolved_detached object _)
  refine ⟨session.trace.nextLabel, object.detached.face id, session.added object.detached, ?_, (extends_self bounded).added (under _),
    ⟨le_rfl, Nat.lt_succ_self _⟩, ⟨_, held', plain_of_detached alone copyPlain⟩,
    buildsAs_detached alone shown (object?_of_plain held' copyPlain) face _⟩
  exact runs_clone shown alone copyable face

private theorem cloned_table {t : TableStatement Value} (held : session.held? label = some (.table t)) (plain : session.IsPlain (.table t))
    (face : ObjectFace) : ∃ copy copyFace after, session.Cloned (.object label face) copy copyFace after := by
  have shown : session.object? label = some (.table (t.mapValues session.current)) := by
    rw [object?_eq, held]
    rfl
  obtain ⟨names, columns, same⟩ := plain.shown
  generalize t.mapValues session.current = now at shown columns names same
  obtain ⟨copy, between, run, extended, clones⟩ := runs_cloneTable (extends_self bounded) bounded columns session.objects.length
  have copyNames : ∀ name ∈ copy.names, name.Plain := by
    rw [clones.names, names]
    exact plain.1
  have under : (Object.table copy).Under (Rules.referring (session.MadeSince between)) :=
    ⟨fun name member => (copyNames name member).mono fun _ => False.elim, fun value member => (clones.since value member).choose_spec.2⟩
  have held' : (between.added (.table copy)).held? between.trace.nextLabel = some (.table copy) := by
    rw [held?, stored?_added, if_pos rfl]
    rfl
  have found {value : Value} {column : Column} (found : between.IsColumn value column) : (between.added (.table copy)).IsColumn value column :=
    found.precedes (precedes_added _ _) extended.stored
  have plain' : (between.added (.table copy)).IsPlain (.table copy) :=
    ⟨copyNames, fun value member => (clones.since value member).imp fun _ both => found both.1⟩
  have columns' : t.mapColumns session.columnOf = copy.mapColumns (between.added (.table copy)).columnOf := by
    refine (same.symm.trans clones.same).trans (TableStatement.mapColumns_congr fun value member => ?_)
    obtain ⟨column, here, -⟩ := clones.since value member
    rw [here.columnOf_eq, (found here).columnOf_eq]
  refine ⟨between.trace.nextLabel, (Object.table copy).face id, between.added (.table copy), ?_, extended.added under, ⟨extended.grown, Nat.lt_succ_self _⟩,
    ⟨_, held', plain'⟩, buildsAs_table held plain held' plain' columns' face _⟩
  have made := run_invoke shown face (unread_clone _) (lookup_cloneTable label now) [] []
  exact made.trans (Act.runs_get.andThen (run.andThen (runs_newResult between (.table copy))))

/-- A plain object can be cloned if its conditions can be copied. -/
theorem Plain.cloned (plain : session.Plain label) (copyable : session.Copyable label) (face : ObjectFace) :
    ∃ copy copyFace after, session.Cloned (.object label face) copy copyFace after := by
  obtain ⟨object, held, plain⟩ := plain
  have fit := copyable object held
  cases object with
  | table t => exact cloned_table bounded held plain face
  | queryMaker | tableMaker => exact plain.elim
  | _ => exact cloned_alone bounded held trivial plain fit face

end Cloning

/-! ### Independence -/

/-- The sides of a session that goes on after another one: what was there, and what has been made since. -/
def Sides.since (start session : Session) : Sides
  | false, label => label < start.trace.nextLabel
  | true, label => start.MadeSince session label

/-- What was there and what has come about are parted if the new refers only to the new. -/
theorem Extends.parted {changing : Prop} (reachable : start.Reachable changing) (extended : start.Extends session) :
    session.Parted (Sides.since start session) := by
  obtain ⟨stage, reached⟩ : ∃ stage, (Custody.whole False).Reached stage start := Custody.exists_reached reachable fun _ => id
  refine ⟨?_, ?_, extended.stored, ?_, extended.defaults ▸ reached.defaults⟩
  · rintro (_ | _) label own
    · exact Nat.lt_of_lt_of_le own extended.grown
    · exact own.2
  · rintro (_ | _) label own other
    · exact absurd own (Nat.not_lt.mpr other.1)
    · exact absurd other (Nat.not_lt.mpr own.1)
  · rintro (_ | _) label object own given
    · rw [extended.kept label own] at given
      have before : ∀ label < stage.next, True → label < start.trace.nextLabel := fun label made _ => made.trans_eq reached.next.symm
      exact (reached.objects label object given trivial).mono (Custody.rules_referring before before)
    · exact extended.closed label object own.1 given

/-- A plain object of a session that a script has led to can be cloned if its conditions can be copied, and else the call fails and leaves everything as it is. The clone builds what it builds, and no plain object that was there builds anything else than before. Afterwards two parties may work by turns, one on what was there and the other on the clone and what has been made with it, each with objects of its own side only: whatever they do, turns of one of them do not change what a plain object of the other one builds. -/
theorem clone_independent {changing : Prop} {session : Session} (reachable : session.Reachable changing) {label : Label} (plain : session.Plain label)
    (face : ObjectFace) :
    (session.Copyable label → ∃ copy copyFace after, session.Cloned (.object label face) copy copyFace after ∧
      (∀ other, session.Plain other → ∀ face, session.BuildsAs (.object other face) after (.object other face)) ∧
      ∀ later sides, Turns Session.apart (fun _ => True) after (Sides.since session after) later sides → ∀ party latest sides',
        Turns Session.apart (· = !party) later sides latest sides' → ∀ label, sides party label → later.Plain label → ∀ face,
          later.BuildsAs (.object label face) latest (.object label face)) ∧
    (¬ session.Copyable label → (invoke (.object label face) "clone" [] []).Runs session (.error .attributeMissing) session) := by
  refine ⟨fun copyable => ?_, fun uncopyable => plain.uncloned uncopyable face⟩
  obtain ⟨stage, reached⟩ : ∃ stage, (Custody.whole False).Reached stage session := Custody.exists_reached reachable fun _ => id
  have bounded : ∀ label object, session.stored? label = some object → label < session.trace.nextLabel :=
    fun label object given => (reached.made label object given).trans_eq reached.next.symm
  obtain ⟨copy, copyFace, after, cloned⟩ := plain.cloned bounded copyable face
  have before := (extends_self bounded).parted reachable
  have parted := cloned.extended.parted reachable
  refine ⟨copy, copyFace, after, cloned, fun other plain face => ?_, fun later sides turns party latest sides' further label own plain face => ?_⟩
  · obtain ⟨object, held, -⟩ := id plain
    obtain ⟨stored, given, -⟩ := Option.map_eq_some_iff.mp held
    have own : Sides.since session session false other := bounded other stored given
    exact plain.buildsAs own (before.closed false) cloned.extended.kept face face
  · exact (turns.parted separating_apart parted).buildsAs separating_apart further own plain face

/-- A session with a column, and a statement that creates a table with it. -/
private def tabled : Session :=
  ((answer {} true (.create "column" [.leaf (.text "id"), .leaf (.text "INT")] [] (some "c"))).2.answer true
    (.create "CreateTableQuery" [.leaf (.text "t"), .list [.reference "c"]] [] (some "t"))).2

/-- The column is held by the caller and by the statement; the clone has a column of its own. -/
theorem clone_independent_table :
    ∃ copy copyFace after, tabled.Cloned (.object 5 ⟨"CreateTableQuery", "<CreateTableQuery>", true⟩) copy copyFace after ∧
      ∀ later sides, Turns Session.apart (· = false) after (Sides.since tabled after) later sides →
        after.BuildsAs (.object copy copyFace) later (.object copy copyFace) := by
  have first : (Step.create "column" [.leaf (.text "id"), .leaf (.text "INT")] [] (some "c")).Sound False :=
    ⟨List.forall_mem_cons.mpr ⟨trivial, List.forall_mem_singleton.mpr trivial⟩, forall_nothing⟩
  have second : (Step.create "CreateTableQuery" [.leaf (.text "t"), .list [.reference "c"]] [] (some "t")).Sound False :=
    ⟨List.forall_mem_cons.mpr ⟨trivial, List.forall_mem_singleton.mpr ⟨trivial, trivial⟩⟩, forall_nothing⟩
  have reachable : tabled.Reachable False := .step (.step (.start {} trivial trivial) true first) true second
  have column : tabled.stored? 2 = some (.column { name := .text "id", type := .text "INT" }) := rfl
  have table : tabled.held? 5 =
      some (.table (.create ⟨{ name := .text "t" }, .bool false, [.object 2 ⟨"ColumnDefinition", "ColumnDefinition('id', 'INT')", true⟩]⟩)) := rfl
  have plain : tabled.Plain 5 := by
    have text (word : Text) : (Value.text word).Plain := List.forall_mem_singleton.mpr fun _ _ => nofun
    have guard : (Value.bool false).Plain := List.forall_mem_singleton.mpr fun _ _ => nofun
    have null : Value.null.Plain := List.forall_mem_singleton.mpr fun _ _ => nofun
    refine ⟨_, table, List.forall_mem_cons.mpr ⟨text _, List.forall_mem_singleton.mpr guard⟩, List.forall_mem_singleton.mpr ⟨_, 2, _, rfl, column, ?_⟩⟩
    exact List.forall_mem_cons.mpr ⟨text _, List.forall_mem_cons.mpr ⟨text _, List.forall_mem_cons.mpr ⟨null, List.forall_mem_singleton.mpr null⟩⟩⟩
  have copyable : tabled.Copyable 5 := fun object held => Option.some.inj (table.symm.trans held) ▸ trivial
  obtain ⟨copy, copyFace, after, cloned, -, independent⟩ :=
    (clone_independent reachable plain ⟨"CreateTableQuery", "<CreateTableQuery>", true⟩).1 copyable
  refine ⟨copy, copyFace, after, cloned, fun later sides turns => ?_⟩
  exact independent after _ .none true later sides turns copy cloned.since cloned.plain copyFace

/-- A session with a predicate, and a selection that holds it in the place of its conditions. -/
private def predicated : Session :=
  (((answer {} true (.create "Predicate" [.leaf (.text "a = 1")] [] (some "p"))).2.answer true
    (.create "SelectQuery" [.leaf (.text "t")] [] (some "q"))).2.answer true (.populate "q" false "s" [] (some "p") none)).2

private theorem held_predicated :
    predicated.held? 4 = some (.query (.of (.select { table := .text "t", filter := .predicate ⟨.plain "a = 1", []⟩ }))) :=
  rfl

private theorem plain_predicated : predicated.Plain 4 := by
  have null : Value.null.Plain := List.forall_mem_singleton.mpr fun _ _ => nofun
  have switch : (Value.bool false).Plain := List.forall_mem_singleton.mpr fun _ _ => nofun
  have table : (Value.text "t").Plain := List.forall_mem_singleton.mpr fun _ _ => nofun
  refine ⟨_, held_predicated, .of ⟨?settings, forall_nothing, forall_nothing, forall_nothing, ?restrictions, ?names, ?switches,
    forall_nothing, forall_nothing, by rintro _ ⟨⟩⟩ forall_nothing, by rintro _ ⟨⟩⟩
  case settings =>
    rintro _ ⟨⟩
    exact ⟨forall_nothing, switch, switch⟩
  case restrictions => exact List.forall_mem_cons.mpr ⟨forall_nothing, List.forall_mem_singleton.mpr ⟨forall_nothing, by rintro _ ⟨⟩⟩⟩
  case names => exact List.forall_mem_cons.mpr ⟨table, List.forall_mem_singleton.mpr null⟩
  case switches => exact List.forall_mem_cons.mpr ⟨switch, List.forall_mem_singleton.mpr switch⟩

/-- The selection can be built. It cannot be cloned, as predicates have no copies. -/
theorem clone_fails_of_predicate : predicated.Reachable False ∧ predicated.Plain 4 ∧ ¬ predicated.Copyable 4 ∧
    ((invoke (.object 4 ⟨"SelectQuery", "<SelectQuery>", true⟩) "build" [] []).run predicated).1.isOk = true ∧
    (invoke (.object 4 ⟨"SelectQuery", "<SelectQuery>", true⟩) "clone" [] []).Runs predicated (.error .attributeMissing) predicated := by
  have first : (Step.create "Predicate" [.leaf (.text "a = 1")] [] (some "p")).Sound False :=
    ⟨List.forall_mem_singleton.mpr trivial, forall_nothing⟩
  have second : (Step.create "SelectQuery" [.leaf (.text "t")] [] (some "q")).Sound False :=
    ⟨List.forall_mem_singleton.mpr trivial, forall_nothing⟩
  have third : (Step.populate "q" false "s" [] (some "p") none).Sound False := trivial
  have reachable : predicated.Reachable False := .step (.step (.step (.start {} trivial trivial) true first) true second) true third
  have uncopyable : ¬ predicated.Copyable 4 := fun copyable => copyable _ held_predicated _ (List.mem_cons_self ..)
  exact ⟨reachable, plain_predicated, uncopyable, by decide +kernel, plain_predicated.uncloned uncopyable _⟩

end Session

end SqlCompose
