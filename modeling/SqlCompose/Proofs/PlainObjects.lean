import Mathlib
import SqlCompose.Proofs.BuildCalls
import SqlCompose.Proofs.FixedValues
import SqlCompose.Proofs.Sides

/-!
# Plain objects

An object is plain if nothing that it holds refers to another object: its names, its expressions and the values that it binds are no objects. A statement on a table is plain if its columns are plain columns and it refers to nothing else.

A plain object is shown as it is stored, with the chains that it has adopted. So what it builds depends on nothing but itself, these chains and its columns, and turns of a party that has none of them on its side do not change it (`Parted.buildsAs`).
-/

namespace SqlCompose

/-! ### Values without objects -/

namespace Value

/-- Nothing in a value refers to an object. -/
def Plain (value : Value) : Prop :=
  value.Refers fun _ => False

variable (faceOf : Label → Option ObjectFace)

mutual

/-- A value without objects looks the same whatever objects look like. -/
theorem Plain.refaced_eq : (value : Value) → value.Plain → value.refaced faceOf = value
  | .list _ items, plain => by rw [refaced, Plain.refacedItems_eq items (everywhere_list.mp plain).2]
  | .tuple _ items, plain => by rw [refaced, Plain.refacedItems_eq items (everywhere_tuple.mp plain).2]
  | .record _ _ fields, plain => by rw [refaced, Plain.refacedItems_eq fields (everywhere_record.mp plain).2]
  | .dict _ entries, plain => by rw [refaced, Plain.refacedEntries_eq entries (everywhere_dict.mp plain).2]
  | .object label face, plain => (plain.self label face rfl).elim
  | .byteArray _ _, _ | .null, _ | .bool _, _ | .int _, _ | .float _, _ | .floatNaN _, _ | .decimal _, _ | .decimalNaN _ _, _
  | .text _, _ | .entry _, _ | .bytes _, _ | .date _, _ | .dateTime _, _ | .time _, _ | .duration _ _ _, _ | .uuid _, _
  | .unbindable _ _, _ => rfl

theorem Plain.refacedItems_eq : (items : List Value) → (∀ item ∈ items, item.Plain) → refacedItems faceOf items = items
  | [], _ => rfl
  | item :: items, plain => by
    rw [List.forall_mem_cons] at plain
    rw [refacedItems, Plain.refaced_eq item plain.1, Plain.refacedItems_eq items plain.2]

theorem Plain.refacedEntries_eq : (entries : List (Value × Value)) → (∀ entry ∈ entries, entry.1.Plain ∧ entry.2.Plain) →
    refacedEntries faceOf entries = entries
  | [], _ => rfl
  | (key, value) :: entries, plain => by
    rw [List.forall_mem_cons] at plain
    rw [refacedEntries, Plain.refaced_eq key plain.1.1, Plain.refaced_eq value plain.1.2, Plain.refacedEntries_eq entries plain.2]

end

end Value

/-- The rules for objects that refer to no other object, whoever has the chains that they have adopted. -/
def Rules.plain : Rules :=
  (Rules.referring fun _ => False).lax

theorem Rules.plain_implies (faceOf : Label → Option ObjectFace) : Rules.plain.Implies (Rules.fixed (Value.refaced faceOf)) := by
  have same (value : Value) (plain : value.Plain) : value.refaced faceOf = value := Value.Plain.refaced_eq faceOf value plain
  refine ⟨same, same, fun query sound => ?_, fun _ _ => trivial⟩
  have values : query.values.map (Value.refaced faceOf) = query.values :=
    (List.map_congr_left fun value member => same value (sound.values value member)).trans (List.map_id' _)
  exact congrArg₂ BuiltQuery.mk (same query.text sound.text) values

namespace Session

variable {session session' : Session}

/-- An object as it is stored, with the chains that others hold as they are now. -/
def held? (session : Session) (label : Label) : Option Object :=
  (session.stored? label).map (Object.resolved session.chain?)

/-- A column that refers to nothing. -/
def IsColumn (session : Session) (value : Value) (column : Column) : Prop :=
  ∃ label face, value = .object label face ∧ session.stored? label = some (.column column) ∧ (Object.column column).Under Rules.plain

/-- An object that can be built, and refers to nothing but plain columns. -/
def IsPlain (session : Session) : Object → Prop
  | .table t => (∀ name ∈ t.names, name.Plain) ∧ ∀ value ∈ t.columns, ∃ column, session.IsColumn value column
  | .queryMaker _ | .tableMaker _ => False
  | object => object.Under Rules.plain

/-- There is a plain object under a label. -/
def Plain (session : Session) (label : Label) : Prop :=
  ∃ object, session.held? label = some object ∧ session.IsPlain object

theorem object?_eq (session : Session) (label : Label) : session.object? label = (session.held? label).map (Object.mapValues session.current) := by
  rw [object?, held?, Option.map_map]
  rfl

/-- An object that refers to nothing is shown as it is. -/
theorem object?_of_plain {label : Label} {object : Object} (held : session.held? label = some object) (plain : object.Under Rules.plain) :
    session.object? label = some object := by
  rw [object?_eq, held]
  exact congrArg some (plain.mono (Rules.plain_implies _)).mapValues_eq

/-! ### Statements on tables -/

/-- The column that a value refers to. -/
def columnOf (session : Session) : Value → Column
  | .object label _ => match session.stored? label with
    | some (.column column) => column
    | _ => {}
  | _ => {}

theorem IsColumn.columnOf_eq {value : Value} {column : Column} (found : session.IsColumn value column) : session.columnOf value = column := by
  obtain ⟨label, face, rfl, stored, -⟩ := found
  rw [columnOf, stored]

theorem IsColumn.columnPart_eq {value : Value} {column : Column} (found : session.IsColumn value column) (faceOf : Label → Option ObjectFace)
    (define : Object → Build Value) : session.columnPart define (value.refaced faceOf) = column.toPart := by
  obtain ⟨label, face, rfl, stored, plain⟩ := found
  have held : session.held? label = some (.column column) := by
    rw [held?, stored]
    rfl
  rw [Value.refaced, columnPart, object?_of_plain held plain]

end Session

namespace TableStatement

variable {C D E : Type}

theorem mapColumns_create (f : C → D) (s : CreateTable C) :
    (create s).mapColumns f = create ⟨s.target, s.unlessExists, s.columns.map f⟩ := by
  simp [mapColumns, mapColumnsM, Id.run]
  rfl

theorem mapColumns_alter (f : C → D) (s : AlterTable C) : (alter s).mapColumns f =
    alter ⟨s.target, s.additions.map f, s.alterations.map fun group => (group.1, group.2.map f), s.drops⟩ := by
  simp [mapColumns, mapColumnsM, Id.run]
  rfl

theorem mapColumns_drop (f : C → D) (s : DropTable) : (drop s : TableStatement C).mapColumns f = drop s :=
  rfl

/-- Columns that are read off the values of a statement without objects among its names. -/
theorem mapColumns_mapValues {statement : TableStatement Value} {read : Value → Value} {f g : Value → D}
    (names : ∀ name ∈ statement.names, read name = name) (columns : ∀ column ∈ statement.columns, f (read column) = g column) :
    (statement.mapValues read).mapColumns f = statement.mapColumns g := by
  have same (values : List Value) (all : ∀ value ∈ values, f (read value) = g value) : (values.map read).map f = values.map g := by
    rw [List.map_map]
    exact List.map_congr_left all
  have fixed (values : List Value) (all : ∀ value ∈ values, read value = value) : values.map read = values :=
    (List.map_congr_left all).trans (List.map_id' _)
  cases statement with
  | create s =>
    obtain ⟨name, further⟩ := List.forall_mem_cons.mp names
    obtain ⟨guard, schemas⟩ := List.forall_mem_cons.mp further
    have columns : (s.columns.map read).map f = s.columns.map g := same _ columns
    rw [mapValues, mapColumns_create, mapColumns_create]
    simp only [TableTarget.mapValues, name, guard, fixed _ schemas, columns]
  | alter s =>
    obtain ⟨name, further⟩ := List.forall_mem_cons.mp names
    obtain ⟨either, drops⟩ := List.forall_mem_append.mp further
    obtain ⟨schemas, current⟩ := List.forall_mem_append.mp either
    obtain ⟨additions, inside⟩ := List.forall_mem_append.mp columns
    have alterations : (s.alterations.map fun group => (read group.1, group.2.map read)).map (fun group => (group.1, group.2.map f)) =
        s.alterations.map fun group => (group.1, group.2.map g) := by
      rw [List.map_map]
      exact List.map_congr_left fun group member => Prod.ext (List.forall_mem_map.mp current group member)
        (same _ (List.forall_mem_flatMap.mp inside group member))
    rw [mapValues, mapColumns_alter, mapColumns_alter]
    simp only [TableTarget.mapValues, name, fixed _ schemas, fixed _ drops, same _ additions]
    exact congrArg (fun groups => alter ⟨s.target, s.additions.map g, groups, s.drops⟩) alterations
  | drop s =>
    obtain ⟨name, further⟩ := List.forall_mem_cons.mp names
    obtain ⟨guard, schemas⟩ := List.forall_mem_cons.mp further
    rw [mapValues, mapColumns_drop, mapColumns_drop]
    simp only [TableTarget.mapValues, name, guard, fixed _ schemas]

theorem mapColumns_mapColumns (f : C → D) (g : D → E) (statement : TableStatement C) :
    (statement.mapColumns f).mapColumns g = statement.mapColumns (g ∘ f) := by
  cases statement with
  | create s => simp [mapColumns_create]
  | alter s => simp [mapColumns_alter]
  | drop s => rfl

theorem mapColumns_congr {f g : C → D} {statement : TableStatement C} (same : ∀ column ∈ statement.columns, f column = g column) :
    statement.mapColumns f = statement.mapColumns g := by
  cases statement with
  | create s =>
    have columns : s.columns.map f = s.columns.map g := List.map_congr_left same
    rw [mapColumns_create, mapColumns_create, columns]
  | alter s =>
    obtain ⟨additions, inside⟩ := List.forall_mem_append.mp same
    have groups : s.alterations.map (fun group => (group.1, group.2.map f)) = s.alterations.map fun group => (group.1, group.2.map g) :=
      List.map_congr_left fun group member => Prod.ext rfl (List.map_congr_left (List.forall_mem_flatMap.mp inside group member))
    rw [mapColumns_alter, mapColumns_alter, List.map_congr_left additions, groups]
  | drop s => rfl

end TableStatement

namespace Session

variable {session session' : Session} {label label' : Label}

/-- A plain statement on a table is built from its columns. -/
theorem build_of_plain {t : TableStatement Value} (plain : session.IsPlain (.table t)) :
    session.build (.table (t.mapValues session.current)) = ((t.mapColumns session.columnOf).mapColumns Column.toPart).build := by
  obtain ⟨names, columns⟩ := plain
  rw [build, depth, buildWithin, TableStatement.mapColumns_mapColumns]
  refine congrArg TableStatement.build (TableStatement.mapColumns_mapValues ?_ ?_)
  · exact fun name member => Value.Plain.refaced_eq _ name (names name member)
  · intro value member
    obtain ⟨column, found⟩ := columns value member
    rw [current, found.columnPart_eq, Function.comp_apply, found.columnOf_eq]

/-- A plain statement on a table looks as it is but for the faces of its columns. -/
theorem IsPlain.shown {t : TableStatement Value} (plain : session.IsPlain (.table t)) :
    (t.mapValues session.current).names = t.names ∧
      (∀ value ∈ (t.mapValues session.current).columns, ∃ column, session.IsColumn value column) ∧
      (t.mapValues session.current).mapColumns session.columnOf = t.mapColumns session.columnOf := by
  have names : ∀ name ∈ t.names, session.current name = name := fun name member => Value.Plain.refaced_eq _ name (plain.1 name member)
  have seen {value : Value} {column : Column} (found : session.IsColumn value column) : session.IsColumn (session.current value) column := by
    obtain ⟨label, face, rfl, stored, under⟩ := found
    exact ⟨label, _, rfl, stored, under⟩
  refine ⟨?_, ?_, TableStatement.mapColumns_mapValues names fun value member => ?_⟩
  · have mapped : (t.mapValues session.current).names = t.names.map session.current := by
      cases t <;> simp [TableStatement.mapValues, TableStatement.names, TableTarget.mapValues]
    exact mapped.trans ((List.map_congr_left names).trans (List.map_id' _))
  · have mapped : (t.mapValues session.current).columns = t.columns.map session.current := by
      cases t <;> simp [TableStatement.mapValues, TableStatement.columns, List.map_flatMap, List.flatMap_map]
    rw [mapped]
    exact List.forall_mem_map.mpr fun value member => (plain.2 value member).imp fun _ => seen
  · obtain ⟨column, found⟩ := plain.2 value member
    rw [found.columnOf_eq, (seen found).columnOf_eq]

private theorem lookup_buildTable (label : Label) (t : TableStatement Value) : (tableMethods label t).lookup ("build" : Text) =
    some ⟨.none, fun _ => do
      let session ← get
      Act.builtResult (session.build (.table t))⟩ :=
  rfl

/-- What a call of `build` gives for a plain statement on a table. -/
private theorem outcome_build {t : TableStatement Value} (held : session.held? label = some (.table t)) (plain : session.IsPlain (.table t))
    (face : ObjectFace) (values : List Value) (named : List (Text × Value)) :
    ((invoke (.object label face) "build" values named).run session).1 =
      match Signature.none.bind values named with
      | .ok _ => (Build.runFrom session.trace ((t.mapColumns session.columnOf).mapColumns Column.toPart).build).1.map Outcome.value
      | .error error => .error error := by
  have shown : session.object? label = some (.table (t.mapValues session.current)) := by
    rw [object?_eq, held]
    rfl
  have built := build_of_plain plain
  generalize t.mapValues session.current = now at shown built
  rw [run_invoke shown face (unread_build _) (lookup_buildTable label now)]
  cases Signature.none.bind values named with
  | error error => rfl
  | ok arguments =>
    dsimp only
    rw [Act.run_bind, (Act.runs_get : (get : Act Session).run session = _)]
    dsimp only
    rw [outcome_builtResult, built]

/-- Plain statements on tables with the same columns build the same. -/
theorem buildsAs_table {t t' : TableStatement Value} (held : session.held? label = some (.table t)) (plain : session.IsPlain (.table t))
    (held' : session'.held? label' = some (.table t')) (plain' : session'.IsPlain (.table t'))
    (same : t.mapColumns session.columnOf = t'.mapColumns session'.columnOf) (face face' : ObjectFace) :
    session.BuildsAs (.object label face) session' (.object label' face') := by
  intro values named trace
  have first : ({ session with trace } : Session).held? label = some (.table t) := held
  have second : ({ session' with trace } : Session).held? label' = some (.table t') := held'
  rw [outcome_build first plain face values named, outcome_build second plain' face' values named]
  have columns : t.mapColumns ({ session with trace } : Session).columnOf = t'.mapColumns ({ session' with trace } : Session).columnOf := same
  rw [columns]

end Session

/-! ### On one side -/

private theorem Restriction.resolved_congr {rules : Rules} {find find' : Label → Option Chain} (same : ∀ label, rules.hands label → find label = find' label)
    {restriction : Restriction} (under : restriction.Under rules) : restriction.resolved find = restriction.resolved find' := by
  cases restriction with
  | chain held =>
    have chains : held.holder.bind find = held.holder.bind find' := by
      cases holder : held.holder with
      | none => rfl
      | some label => exact same label (under.2 label holder)
    rw [Restriction.resolved, Restriction.resolved, Held.resolved, Held.resolved, chains]
  | _ => rfl

/-- Chains that nobody has adopted do not matter to an object. -/
theorem Object.Under.resolved_congr {rules : Rules} {object : Object} (under : object.Under rules) {find find' : Label → Option Chain}
    (same : ∀ label, rules.hands label → find label = find' label) : object.resolved find = object.resolved find' := by
  cases object with
  | query q =>
    obtain ⟨statement⟩ := q
    have own := (Query.under_of.mp under.1).1
    have restrictions := fun restriction member => Restriction.resolved_congr same (own.restrictions restriction member)
    refine congrArg (fun statement => Object.query (.of statement)) ?_
    cases statement with
    | select s =>
      rw [Query.statement, Statement.resolved, Statement.resolved, restrictions s.filter (by simp [Statement.restrictions]),
        restrictions s.having (by simp [Statement.restrictions])]
    | compound s =>
      rw [Query.statement, Statement.resolved, Statement.resolved, restrictions s.filter (by simp [Statement.restrictions]),
        restrictions s.having (by simp [Statement.restrictions])]
    | update s => rw [Query.statement, Statement.resolved, Statement.resolved, restrictions s.filter (by simp [Statement.restrictions])]
    | delete s => rw [Query.statement, Statement.resolved, Statement.resolved, restrictions s.filter (by simp [Statement.restrictions])]
    | insert | built | unbuildable => rfl
  | _ => rfl

namespace Session

variable {session session' : Session} {side : Label → Prop}

/-- What sessions have in common if they agree on the objects of a side that refer to no others. -/
theorem Plain.buildsAs {label : Label} (plain : session.Plain label) (own : side label)
    (closed : ∀ label object, side label → session.stored? label = some object → object.Under (Rules.referring side))
    (same : ∀ label, side label → session'.stored? label = session.stored? label) (face face' : ObjectFace) :
    session.BuildsAs (.object label face) session' (.object label face') := by
  obtain ⟨object, held, plain⟩ := plain
  have chains : ∀ label, side label → session.chain? label = session'.chain? label := by
    intro label own
    rw [chain?, chain?, same label own]
  obtain ⟨stored, found, rfl⟩ := Option.map_eq_some_iff.mp held
  have under := closed label stored own found
  have held' : session'.held? label = some (stored.resolved session.chain?) := by
    rw [held?, same label own, found, under.resolved_congr chains]
    rfl
  have alone (alone : (stored.resolved session.chain?).Alone) (under : (stored.resolved session.chain?).Under Rules.plain) :=
    buildsAs_alone alone (object?_of_plain held under) (object?_of_plain held' under) face face'
  cases stored with
  | table t =>
    have columns : ∀ value ∈ t.columns, ∀ column, session.IsColumn value column → session'.IsColumn value column := by
      rintro _ member column ⟨label, face, rfl, stored, plain⟩
      exact ⟨label, face, rfl, (same label ((under.2 _ member).self label face rfl)).trans stored, plain⟩
    have plain' : session'.IsPlain (.table t) := ⟨plain.1, fun value member => (plain.2 value member).imp (columns value member)⟩
    refine buildsAs_table held plain held' plain' (TableStatement.mapColumns_congr fun value member => ?_) face face'
    obtain ⟨column, found⟩ := plain.2 value member
    rw [found.columnOf_eq, (columns value member column found).columnOf_eq]
  | queryMaker | tableMaker => exact plain.elim
  | chain | query | cte | ctes | column => exact alone trivial plain

/-- Turns of the other party do not change what a plain object builds. -/
theorem Parted.buildsAs {permits : Permits} {sides sides' : Sides} {party : Bool} (separating : Separating permits) (parted : session.Parted sides)
    (turns : Turns permits (· = !party) session sides session' sides') {label : Label} (own : sides party label) (plain : session.Plain label)
    (face : ObjectFace) : session.BuildsAs (.object label face) session' (.object label face) :=
  plain.buildsAs own (parted.closed party) (fun _ own => (turns.kept separating parted own).2) face face

end Session

end SqlCompose
