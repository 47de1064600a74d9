import Mathlib
import SqlCompose.Proofs.CustodyMethods
import SqlCompose.Session.TableMethods

/-!
# Methods of tables in custody

A statement on a table holds its columns as values, and its methods look at the objects that these refer to. What is built from columns are texts. A copy of a statement on a table has copies of its columns, which are new objects.
-/

namespace SqlCompose

open Build

/-! ### What columns and tables build -/

namespace Column

theorem quiet_requireNamed (column : Column) : Quiet column.requireNamed := by
  have failing {α : Type} (omission : Omission) : Quiet (failFor (α := α) logger omission) :=
    fun _ => gives_failFor _ _
  unfold requireNamed
  split
  · exact quiet_pure _
  · exact failing _
  · exact failing _
  · exact quiet_after fun _ => failing _

theorem quiet_build (column : Column) (bare : Bool) : Quiet (column.build bare) := by
  refine column.quiet_requireNamed.bind fun _ => quiet_after fun type => ?_
  dsimp only
  split
  · exact (quiet_pure _).bind fun _ => quiet_after fun _ => quiet_after fun _ => quiet_pure _
  · exact quiet_after fun _ => quiet_after fun _ => quiet_after fun _ => quiet_pure _

theorem quiet_buildToAdd (column : Column) (table tableName : Value) : Quiet (column.buildToAdd table tableName) :=
  column.quiet_requireNamed.bind fun _ => quiet_after fun _ => (column.quiet_build true).bind fun _ => quiet_after fun _ =>
    quiet_after fun _ => quiet_after fun _ => quiet_after fun _ => quiet_pure _

theorem quiet_buildToAlter (column : Column) (table tableName previous : Value) :
    Quiet (column.buildToAlter table tableName previous) :=
  column.quiet_requireNamed.bind fun _ => quiet_after fun _ => quiet_after fun _ => quiet_after fun _ => quiet_after fun _ =>
    quiet_after fun _ => quiet_after fun _ => quiet_after fun _ => quiet_after fun _ => quiet_pure _

end Column

/-- What a part contributes it contributes without regard to what comes of it. -/
structure ColumnPart.Quiet (part : ColumnPart) : Prop where
  define : Build.Quiet part.define
  add : ∀ table tableName, Build.Quiet (part.add table tableName)
  alter : ∀ table tableName previous, Build.Quiet (part.alter table tableName previous)

theorem Column.quiet_toPart (column : Column) : column.toPart.Quiet :=
  ⟨column.quiet_build false, fun _ _ => column.quiet_buildToAdd _ _, fun _ _ _ => column.quiet_buildToAlter _ _ _⟩

/-- What a change of a column puts in is under the rules. -/
def Column.Edit.Under (rules : Rules) : Edit → Prop
  | .name given | .type given | .default given | .condition given => rules.other given
  | .foreignKey key => rules.other key.table ∧ rules.other key.column
  | .nullable _ | .primaryKey | .unique | .dropDefault => True

theorem Column.Edit.Under.mono {rules rules' : Rules} {edit : Edit} (under : edit.Under rules) (weaker : rules.Implies rules') :
    edit.Under rules' := by
  cases edit with
  | name _ | type _ | default _ | condition _ => exact weaker.other _ under
  | foreignKey _ => exact ⟨weaker.other _ under.1, weaker.other _ under.2⟩
  | _ => trivial

theorem Column.under_apply {rules : Rules} {column : Column} (under : (Object.column column).Under rules) {edit : Edit}
    (given : edit.Under rules) : (Object.column (edit.apply column)).Under rules := by
  have values : ∀ value ∈ column.values, rules.other value := under
  simp only [Column.values, List.forall_mem_append, List.forall_mem_cons] at values
  obtain ⟨⟨name, type, standard, condition, _⟩, key⟩ := values
  change ∀ value ∈ (edit.apply column).values, rules.other value
  simp only [Column.values, List.forall_mem_append, List.forall_mem_cons]
  cases edit with
  | name _ => exact ⟨⟨given, type, standard, condition, forall_nothing⟩, key⟩
  | type _ => exact ⟨⟨name, given, standard, condition, forall_nothing⟩, key⟩
  | default _ => exact ⟨⟨name, type, given, condition, forall_nothing⟩, key⟩
  | condition _ => exact ⟨⟨name, type, standard, given, forall_nothing⟩, key⟩
  | foreignKey _ =>
    exact ⟨⟨name, type, standard, condition, forall_nothing⟩, List.forall_mem_cons.mpr ⟨given.1, List.forall_mem_singleton.mpr given.2⟩⟩
  | nullable _ | primaryKey | unique | dropDefault => exact ⟨⟨name, type, standard, condition, forall_nothing⟩, key⟩

namespace TableStatement

variable {C D : Type}

theorem columns_mapColumns (f : C → D) (statement : TableStatement C) : (statement.mapColumns f).columns = statement.columns.map f := by
  cases statement with
  | create s => simp [mapColumns, mapColumnsM, columns]
  | alter s => simp [mapColumns, mapColumnsM, columns, List.map_flatMap, List.flatMap_map]
  | drop s => rfl

/-! ### Changes of a statement on a table -/

section Changes

variable {rules : Rules}

private theorem create_under {s : CreateTable Value} : (Object.table (.create s)).Under rules ↔
    rules.other s.target.name ∧ rules.other s.unlessExists ∧ (∀ schema ∈ s.target.schemas, rules.other schema) ∧
      ∀ column ∈ s.columns, rules.other column := by
  simp only [Object.Under, names, columns, List.forall_mem_cons, and_assoc]

private theorem alter_under {s : AlterTable Value} : (Object.table (.alter s)).Under rules ↔
    rules.other s.target.name ∧ (∀ schema ∈ s.target.schemas, rules.other schema) ∧ (∀ column ∈ s.additions, rules.other column) ∧
      (∀ entry ∈ s.alterations, rules.other entry.1 ∧ ∀ column ∈ entry.2, rules.other column) ∧ ∀ name ∈ s.drops, rules.other name := by
  simp only [Object.Under, names, columns, List.cons_append, List.forall_mem_cons, List.forall_mem_append, List.forall_mem_map,
    List.forall_mem_flatMap, forall_and]
  tauto

private theorem drop_under {s : DropTable} : (Object.table (.drop s)).Under rules ↔
    rules.other s.target.name ∧ rules.other s.ifExists ∧ ∀ schema ∈ s.target.schemas, rules.other schema := by
  simp [Object.Under, names, columns]

/-- What a change of a statement on a table puts in is under the rules. -/
def Edit.Under (rules : Rules) : Edit Value → Prop
  | .table given | .guarded given => rules.other given
  | .schemas given | .moreSchemas given | .drops given | .moreDrops given => ∀ name ∈ given, rules.other name
  | .columns given | .moreColumns given | .additions given | .moreAdditions given => ∀ column ∈ given, rules.other column
  | .alterations given => ∀ entry ∈ given, rules.other entry.1 ∧ ∀ column ∈ entry.2, rules.other column
  | .moreAlterations name given => rules.other name ∧ ∀ column ∈ given, rules.other column
  | .flavor _ => True

theorem Edit.Under.mono {rules' : Rules} {edit : Edit Value} (under : edit.Under rules) (weaker : rules.Implies rules') :
    edit.Under rules' := by
  cases edit with
  | table _ | guarded _ => exact weaker.other _ under
  | schemas _ | moreSchemas _ | drops _ | moreDrops _ | columns _ | moreColumns _ | additions _ | moreAdditions _ =>
    exact fun value member => weaker.other value (under value member)
  | alterations _ =>
    exact fun entry member => ⟨weaker.other _ (under entry member).1, fun column inside => weaker.other column ((under entry member).2 column inside)⟩
  | moreAlterations _ _ => exact ⟨weaker.other _ under.1, fun column member => weaker.other column (under.2 column member)⟩
  | flavor _ => trivial

private theorem addAlterations_under {name : Value} {given : List Value} (named : rules.other name) (good : ∀ column ∈ given, rules.other column)
    {list : List (Value × List Value)} (all : ∀ entry ∈ list, rules.other entry.1 ∧ ∀ column ∈ entry.2, rules.other column) :
    ∀ entry ∈ addAlterations name given list, rules.other entry.1 ∧ ∀ column ∈ entry.2, rules.other column := by
  induction list with
  | nil => exact List.forall_mem_singleton.mpr ⟨named, good⟩
  | cons entry list ih =>
    rw [List.forall_mem_cons] at all
    unfold addAlterations
    split
    · exact List.forall_mem_cons.mpr ⟨⟨all.1.1, List.forall_mem_append.mpr ⟨all.1.2, good⟩⟩, all.2⟩
    · exact List.forall_mem_cons.mpr ⟨all.1, ih all.2⟩

variable {statement : TableStatement Value} (under : (Object.table statement).Under rules)
include under

private theorem changeTarget_under {change : TableTarget → TableTarget}
    (name : rules.other (change statement.target).name) (schemas : ∀ schema ∈ (change statement.target).schemas, rules.other schema) :
    (Object.table (statement.changeTarget change)).Under rules := by
  cases statement with
  | create s =>
    obtain ⟨_, absent, _, columns⟩ := create_under.mp under
    exact create_under.mpr ⟨name, absent, schemas, columns⟩
  | alter s =>
    obtain ⟨_, _, rest⟩ := alter_under.mp under
    exact alter_under.mpr ⟨name, schemas, rest⟩
  | drop s =>
    obtain ⟨_, present, _⟩ := drop_under.mp under
    exact drop_under.mpr ⟨name, present, schemas⟩

private theorem target_under : rules.other statement.target.name ∧ ∀ schema ∈ statement.target.schemas, rules.other schema := by
  cases statement with
  | create s => exact ⟨(create_under.mp under).1, (create_under.mp under).2.2.1⟩
  | alter s => exact ⟨(alter_under.mp under).1, (alter_under.mp under).2.1⟩
  | drop s => exact ⟨(drop_under.mp under).1, (drop_under.mp under).2.2⟩

variable {first : Label}

private theorem gives_guard {enabled : Value} (good : rules.other enabled) :
    Gives first (statement.guard enabled) fun _ changed => (Object.table changed).Under rules := by
  cases statement with
  | create s =>
    obtain ⟨name, _, rest⟩ := create_under.mp under
    exact Keeps.pure fun _ _ => create_under.mpr ⟨name, good, rest⟩
  | drop s =>
    obtain ⟨name, _, rest⟩ := drop_under.mp under
    exact Keeps.pure fun _ _ => drop_under.mpr ⟨name, good, rest⟩
  | alter s => exact Keeps.throw _

private theorem gives_changeCreate {change : CreateTable Value → CreateTable Value}
    (good : ∀ s, (Object.table (.create s)).Under rules → (Object.table (.create (change s))).Under rules) :
    Gives first (statement.changeCreate change) fun _ changed => (Object.table changed).Under rules := by
  cases statement with
  | create s => exact Keeps.pure fun _ _ => good s under
  | _ => exact Keeps.throw _

private theorem gives_changeAlter {change : AlterTable Value → AlterTable Value}
    (good : ∀ s, (Object.table (.alter s)).Under rules → (Object.table (.alter (change s))).Under rules) :
    Gives first (statement.changeAlter change) fun _ changed => (Object.table changed).Under rules := by
  cases statement with
  | alter s => exact Keeps.pure fun _ _ => good s under
  | _ => exact Keeps.throw _

theorem gives_apply {edit : Edit Value} (given : edit.Under rules) :
    Gives first (edit.apply statement) fun _ changed => (Object.table changed).Under rules := by
  have target := target_under under
  have creating {change : CreateTable Value → CreateTable Value} (kept : ∀ s, (change s).target = s.target ∧ (change s).unlessExists = s.unlessExists)
      (good : ∀ s, (∀ column ∈ s.columns, rules.other column) → ∀ column ∈ (change s).columns, rules.other column) :
      Gives first (statement.changeCreate change) fun _ changed => (Object.table changed).Under rules :=
    gives_changeCreate under fun s good' => by
      obtain ⟨name, absent, schemas, columns⟩ := create_under.mp good'
      refine create_under.mpr ⟨?_, ?_, ?_, good s columns⟩
      · rwa [(kept s).1]
      · rwa [(kept s).2]
      · rwa [(kept s).1]
  cases edit with
  | table name => exact Keeps.pure fun _ _ => changeTarget_under under given target.2
  | flavor f => exact Keeps.pure fun _ _ => changeTarget_under under target.1 target.2
  | schemas names => exact Keeps.pure fun _ _ => changeTarget_under under target.1 given
  | moreSchemas names => exact Keeps.pure fun _ _ => changeTarget_under under target.1 (List.forall_mem_append.mpr ⟨target.2, given⟩)
  | guarded enabled => exact gives_guard under given
  | columns list => exact creating (fun _ => ⟨rfl, rfl⟩) fun _ _ => given
  | moreColumns more => exact creating (fun _ => ⟨rfl, rfl⟩) fun _ all => List.forall_mem_append.mpr ⟨all, given⟩
  | additions list =>
    exact gives_changeAlter under fun s good => by
      obtain ⟨name, schemas, _, rest⟩ := alter_under.mp good
      exact alter_under.mpr ⟨name, schemas, given, rest⟩
  | moreAdditions more =>
    exact gives_changeAlter under fun s good => by
      obtain ⟨name, schemas, additions, rest⟩ := alter_under.mp good
      exact alter_under.mpr ⟨name, schemas, List.forall_mem_append.mpr ⟨additions, given⟩, rest⟩
  | alterations list =>
    exact gives_changeAlter under fun s good => by
      obtain ⟨name, schemas, additions, _, drops⟩ := alter_under.mp good
      exact alter_under.mpr ⟨name, schemas, additions, given, drops⟩
  | moreAlterations name more =>
    rw [Edit.apply]
    split
    · exact gives_changeAlter under fun s good => by
        obtain ⟨target, schemas, additions, alterations, drops⟩ := alter_under.mp good
        exact alter_under.mpr ⟨target, schemas, additions, addAlterations_under given.1 given.2 alterations, drops⟩
    · exact Keeps.throw _
  | drops names =>
    exact gives_changeAlter under fun s good => by
      obtain ⟨name, schemas, additions, alterations, _⟩ := alter_under.mp good
      exact alter_under.mpr ⟨name, schemas, additions, alterations, given⟩
  | moreDrops more =>
    exact gives_changeAlter under fun s good => by
      obtain ⟨name, schemas, additions, alterations, drops⟩ := alter_under.mp good
      exact alter_under.mpr ⟨name, schemas, additions, alterations, List.forall_mem_append.mpr ⟨drops, given⟩⟩

end Changes

/-! ### Building a statement on a table -/

section Building

variable {statement : TableStatement ColumnPart} (quiet : ∀ part ∈ statement.columns, part.Quiet)

private theorem quiet_require (present : Bool) (omission : Omission) : Quiet (require present Column.logger omission) :=
  quiet_of_gives fun _ => gives_require _ _ _

private theorem quiet_log (message : Text) : Quiet (log Column.logger .debug message) :=
  quiet_of_gives fun _ => gives_log _ _ _

private theorem quiet_create {create : CreateTable ColumnPart} (quiet : ∀ part ∈ create.columns, part.Quiet) : Quiet create.build :=
  (quiet_require _ _).bind fun _ => (quiet_require _ _).bind fun _ => (quiet_mapM fun part member => (quiet part member).define).bind fun _ =>
    quiet_after fun _ => quiet_after fun _ => quiet_after fun _ => (quiet_log _).bind fun _ => quiet_pure _

private theorem quiet_alter {alter : AlterTable ColumnPart} (quiet : ∀ part ∈ (TableStatement.alter alter).columns, part.Quiet) :
    Quiet alter.build := by
  obtain ⟨additions, alterations⟩ := List.forall_mem_append.mp quiet
  refine (quiet_require _ _).bind fun _ => quiet_after fun table => quiet_after fun name => ?_
  refine (quiet_mapM fun part member => (additions part member).add _ _).bind fun added => ?_
  refine Quiet.bind (Quiet.bind (quiet_mapM fun entry member => quiet_mapM fun part inside => ?_) fun _ => quiet_pure _) fun altered => ?_
  · exact (alterations part (List.mem_flatMap.mpr ⟨entry, member, inside⟩)).alter _ _ _
  · refine (quiet_mapM fun _ _ => quiet_after fun _ => quiet_pure _).bind fun dropped => ?_
    exact (quiet_require _ _).bind fun _ => quiet_after fun _ => (quiet_log _).bind fun _ => quiet_lift _

private theorem quiet_drop (drop : DropTable) : Quiet drop.build :=
  (quiet_require _ _).bind fun _ => quiet_after fun _ => quiet_lift _

include quiet

/-- A statement on a table builds a text or a list of texts. -/
theorem gives_build {holds : Value → Prop} (free : Value.OfHandles holds) (first : Label) :
    Gives first statement.build fun _ value => value.Everywhere holds := by
  cases statement with
  | create create => exact (quiet_create quiet first).bind fun _ _ _ _ => Keeps.pure fun _ _ => Value.everywhere_text free _
  | alter alter =>
    refine (quiet_alter quiet first).bind fun _ _ texts _ => gives_freshLabel.bind fun _ _ label _ => Keeps.pure fun _ _ => ?_
    exact Value.everywhere_newList free label (List.forall_mem_map.mpr fun text _ => Value.everywhere_text free text)
  | drop drop => exact (quiet_drop drop first).bind fun _ _ _ _ => Keeps.pure fun _ _ => Value.everywhere_text free _

end Building

end TableStatement

theorem Session.quiet_foreignPart {define : Build Value} (quiet : Quiet define) : (Session.foreignPart define).Quiet :=
  ⟨quiet.bind fun _ => quiet_lift _, fun _ _ => quiet_throw _, fun _ _ _ => quiet_throw _⟩

namespace Custody

variable {custody : Custody} {stage : Stage}

section Building

variable {session : Session} (reached : custody.Reached stage session)
include reached

private theorem quiet_columnParts {build : Object → Build Value}
    (quiet : ∀ object : Object, object.Under (custody.rules stage custody.seen) → Quiet (build object)) {statement : TableStatement Value}
    (under : (Object.table statement).Under (custody.rules stage custody.seen)) :
    ∀ part ∈ (statement.mapColumns (session.columnPart build)).columns, part.Quiet := by
  rw [TableStatement.columns_mapColumns]
  refine List.forall_mem_map.mpr fun value member => ?_
  unfold Session.columnPart
  split
  · next label face =>
    split
    · exact Column.quiet_toPart _
    · next object _ found => exact Session.quiet_foreignPart (quiet object ((reached.object found).2.1 ((under.2 _ member).self.object label face rfl).1))
    · exact Session.quiet_foreignPart (quiet_throw _)
  · exact Session.quiet_foreignPart (quiet_lift _)

private theorem quiet_buildWithin (depth : Nat) : ∀ object : Object, object.Under (custody.rules stage custody.seen) →
    Quiet (session.buildWithin depth object) := by
  have recorded {action : Build BuiltQuery} (gives : ∀ first, Gives first action (BuiltQuery.Fresh (custody.Admits stage) first)) :
      Quiet (do (← action).toValue) :=
    (quiet_of_gives gives).bind fun _ => (quiet_of_gives fun _ => gives_freshLabel).bind fun _ =>
      (quiet_of_gives fun _ => gives_freshLabel).bind fun _ => quiet_pure _
  induction depth with
  | zero => exact fun _ _ => quiet_throw _
  | succ depth ih =>
    intro object under
    cases object with
    | chain c => exact recorded fun _ => gives_chainBuild c _ _ _
    | query q => exact recorded fun _ => Query.gives_build free within under.1 under.2 none none
    | cte c => exact recorded fun _ => gives_cteBuild under
    | ctes cs => exact recorded fun _ => gives_ctesBuild under
    | column c => exact (c.quiet_build false).bind fun _ => quiet_pure _
    | table t =>
      have freed : Value.OfHandles (custody.Admits stage) := free
      exact quiet_of_gives (TableStatement.gives_build (quiet_columnParts reached ih under) freed)
    | queryMaker _ | tableMaker _ => exact quiet_throw _

/-- A statement on a table builds a text or a list of texts. -/
private theorem gives_tableBuild {statement : TableStatement Value} (under : (Object.table statement).Under (custody.rules stage custody.seen))
    (first : Label) : Gives first (session.build (.table statement)) fun _ value => value.Everywhere (custody.Admits stage) :=
  TableStatement.gives_build (quiet_columnParts reached (quiet_buildWithin reached session.objects.length) under) free first

end Building

/-! ### Methods of columns -/

section Columns

/-- What a change of a column puts in is under the rules. -/
abbrev ColumnChange (custody : Custody) (stage : Stage) (edit : Column.Edit) : Prop :=
  edit.Under (custody.rules stage custody.mine)

private theorem columnEdit_permitted (parameter : Text) {edit : Value → Except Error Column.Edit}
    (good : ∀ after value change, value.Everywhere (custody.Admits after) → edit value = .ok change → custody.ColumnChange after change) :
    custody.PermitsChanges stage custody.ColumnChange (Session.columnEdit parameter edit) :=
  ⟨rfl, fun _ _ _ accepts => changes_one (Keeps.lift fun change read after further =>
    good after _ change (admits_later (accepts.get parameter) further) read)⟩

private theorem fixed_permitted {edit : Column.Edit} (good : ∀ after, custody.ColumnChange after edit) :
    custody.PermitsChanges stage custody.ColumnChange ⟨.none, fun _ => .given [edit]⟩ :=
  ⟨rfl, fun _ _ _ _ => changes_given (List.forall_mem_singleton.mpr fun after _ => good after)⟩

private theorem columnEdits_permitted : ∀ entry ∈ Session.columnEdits, custody.PermitsChanges stage custody.ColumnChange entry.2 := by
  have taken {edit : Value → Column.Edit} (good : ∀ after value, value.Everywhere (custody.Admits after) → custody.ColumnChange after (edit value))
      (after : Stage) (value : Value) (change : Column.Edit) (all : value.Everywhere (custody.Admits after))
      (read : (pure (edit value) : Except Error Column.Edit) = .ok change) : custody.ColumnChange after change := by
    cases read
    exact good after value all
  simp only [Session.columnEdits, List.forall_mem_cons]
  refine ⟨columnEdit_permitted _ (taken fun _ _ all => all), columnEdit_permitted _ (taken fun _ _ all => all),
    fixed_permitted fun _ => trivial, fixed_permitted fun _ => trivial, fixed_permitted fun _ => trivial, fixed_permitted fun _ => trivial,
    columnEdit_permitted _ ?default, fixed_permitted fun _ => trivial, columnEdit_permitted _ (taken fun _ _ all => all), ?references, forall_nothing⟩
  case default =>
    rintro after value change all read
    obtain ⟨text, written, rfl⟩ := Outcome.map_eq_ok.mp read
    exact Value.everywhere_worded free all written
  case references =>
    exact ⟨rfl, fun _ _ _ accepts => changes_one (Keeps.after fun _ _ => Keeps.after fun _ _ => Keeps.pure fun _ further =>
      ⟨admits_later (accepts.get "table") further, admits_later (accepts.get "column") further⟩)⟩

private theorem allows_textList {action : Build (List Text)} (quiet : Quiet action) :
    custody.Allows stage (Session.textList action) custody.Grants :=
  allows_builtResult fun _ => gives_freshLabel.bind fun _ _ label _ => (quiet _).bind fun _ _ _ _ => Keeps.pure fun _ _ =>
    Value.everywhere_newList free label (List.forall_mem_map.mpr fun text _ => Value.everywhere_text free text)

private theorem columnResults_permitted {column : Column} (under : (Object.column column).Under (custody.rules stage custody.mine)) :
    ∀ entry ∈ Session.columnResults column, custody.Permits stage entry.2 := by
  simp only [Session.columnResults, List.forall_mem_cons]
  refine ⟨?build, ⟨rfl, fun _ _ _ _ => allows_textList (column.quiet_buildToAdd _ _)⟩,
    ⟨rfl, fun _ _ _ _ => allows_textList (column.quiet_buildToAlter _ _ _)⟩,
    ⟨rfl, fun _ ahead _ _ => allows_newResult (.column column) (under.mono (rules_later ahead))⟩, forall_nothing⟩
  exact ⟨rfl, fun _ _ _ _ => allows_builtResult fun first => (column.quiet_build _ first).bind fun _ _ _ _ => Keeps.pure fun _ _ =>
    Value.everywhere_text free _⟩

variable {label : Label} (mine : custody.mine label)

include mine in
private theorem allows_editColumn {edit : Column.Edit} (good : custody.ColumnChange stage edit) :
    custody.Allows stage (Session.editColumn label edit) fun _ _ => True := by
  refine (allows_object label).bind fun between ahead object found => ?_
  have under := found.2.2 mine
  split
  · next column =>
    have changed : edit.Under (custody.rules between custody.mine) := Column.Edit.Under.mono good (rules_later ahead)
    exact allows_put mine found.1 _ (Column.under_apply under changed)
  · exact Keeps.throw _

include mine in
theorem columnMethods_permitted {column : Column} (under : (Object.column column).Under (custody.rules stage custody.mine)) :
    ∀ entry ∈ Session.columnMethods label column, custody.Permits stage entry.2 :=
  List.forall_mem_append.mpr ⟨permits_changing (fun _ _ _ good => allows_editColumn mine good) columnEdits_permitted,
    columnResults_permitted under⟩

end Columns

/-! ### Methods of statements on tables -/

section Tables

/-- What a change of a statement on a table puts in is under the rules. -/
abbrev TableChange (custody : Custody) (stage : Stage) (edit : TableStatement.Edit Value) : Prop :=
  edit.Under (custody.rules stage custody.mine)

private theorem nameSpread_permitted {edit : List Value → TableStatement.Edit Value}
    (good : ∀ after names, Value.AllEverywhere (custody.Admits after) names → custody.TableChange after (edit names)) :
    custody.PermitsChanges stage custody.TableChange (Session.nameSpread edit) :=
  ⟨rfl, fun _ _ _ accepts => changes_given (List.forall_mem_singleton.mpr fun after further =>
    good after _ fun value member => admits_later (accepts.rest value member) further)⟩

private theorem columnSpread_permitted {edit : List Value → TableStatement.Edit Value}
    (good : ∀ after columns, Value.AllEverywhere (custody.Admits after) columns → custody.TableChange after (edit columns)) :
    custody.PermitsChanges stage custody.TableChange (Session.columnSpread edit) :=
  ⟨rfl, fun _ _ _ accepts => changes_one ((allows_columns accepts.rest).bind fun _ _ columns all => Keeps.pure fun after further =>
    good after columns fun value member => admits_later (all value member) further)⟩

private theorem guarding_permitted : custody.PermitsChanges stage custody.TableChange Session.guarding :=
  ⟨rfl, fun _ _ _ accepts => changes_given (List.forall_mem_singleton.mpr fun _ further => admits_later (accepts.get "enabled") further)⟩

private theorem alterationEntries_admitted {value : Value} (all : value.Everywhere (custody.Admits stage)) {entries : List (Value × List Value)}
    (read : Session.alterationEntries value = .ok entries) :
    ∀ entry ∈ entries, entry.1.Everywhere (custody.Admits stage) ∧ Value.AllEverywhere (custody.Admits stage) entry.2 := by
  unfold Session.alterationEntries at read
  split at read
  · next given =>
    have inside := (Value.everywhere_dict.mp all).2
    refine Outcome.forall_of_mapM read fun entry member given same => ?_
    obtain ⟨name, value⟩ := entry
    obtain ⟨items, found, same⟩ := Outcome.bind_eq_ok.mp same
    cases same
    exact ⟨(inside _ member).1, Value.everywhere_items free (inside _ member).2 found⟩
  · cases read

private theorem tableEdits_permitted : ∀ entry ∈ Session.tableEdits, custody.PermitsChanges stage custody.TableChange entry.2 := by
  simp only [Session.tableEdits, List.forall_mem_cons]
  refine ⟨?table, ?flavor, nameSpread_permitted fun _ _ all => all, nameSpread_permitted fun _ _ all => all, guarding_permitted,
    guarding_permitted, columnSpread_permitted fun _ _ all => all, columnSpread_permitted fun _ _ all => all,
    columnSpread_permitted fun _ _ all => all, columnSpread_permitted fun _ _ all => all, ?moreAlterations, ?alterations,
    nameSpread_permitted fun _ _ all => all, nameSpread_permitted fun _ _ all => all, forall_nothing⟩
  case table =>
    exact ⟨rfl, fun _ _ _ accepts => changes_given (List.forall_mem_singleton.mpr fun _ further => admits_later (accepts.get "name") further)⟩
  case flavor => exact ⟨rfl, fun _ _ _ _ => changes_one (Keeps.after fun _ _ => Keeps.pure fun _ _ => trivial)⟩
  case moreAlterations =>
    exact ⟨rfl, fun _ _ _ accepts => changes_given (List.forall_mem_singleton.mpr fun _ further =>
      ⟨admits_later (accepts.get "name") further, fun column member => admits_later (accepts.rest column member) further⟩)⟩
  case alterations =>
    refine ⟨rfl, fun _ _ _ accepts => changes_one (Keeps.after fun entries read => Keeps.pure fun _ further entry member => ?_)⟩
    have good := alterationEntries_admitted (accepts.get "alterations") read entry member
    exact ⟨admits_later good.1 further, fun column inside => admits_later (good.2 column inside) further⟩

/-- An object that is no query without regard to who holds a part of it. -/
private theorem unhanded {hands hands' : Label → Prop} {object : Object} (under : object.Under (custody.rules stage hands))
    (other : ∀ query, object ≠ .query query) : object.Under (custody.rules stage hands') := by
  cases object with
  | query q => exact absurd rfl (other q)
  | cte c => exact cte_unhanded (under.mono (Rules.implies_lax _))
  | ctes cs => exact fun c member => cte_unhanded ((under c member).mono (Rules.implies_lax _))
  | _ => exact under

theorem growing_value : Growing fun after (value : Value) => value.Everywhere (custody.Admits after) :=
  fun _ _ ahead _ all => admits_later all ahead

/-- A statement on a table, with columns that are copied in turn. -/
private theorem allows_mapColumnsM {statement : TableStatement Value} {copy : Value → Act Value}
    (under : (Object.table statement).Under (custody.rules stage custody.seen))
    (copies : ∀ after, stage ≤ after → ∀ value, value.Everywhere (custody.Admits after) →
      custody.Allows after (copy value) fun after value => value.Everywhere (custody.Admits after)) :
    custody.Allows stage (statement.mapColumnsM copy) fun after changed => (Object.table changed).Under (custody.rules after custody.mine) := by
  have copiesAll {between : Stage} (ahead : stage ≤ between) {values : List Value} (all : Value.AllEverywhere (custody.Admits between) values) :
      custody.Allows between (values.mapM copy) fun after copies => Value.AllEverywhere (custody.Admits after) copies :=
    Keeps.mapM growing_value fun value member => copies between ahead value (all value member)
  cases statement with
  | create s =>
    obtain ⟨name, absent, schemas, columns⟩ := TableStatement.create_under.mp under
    refine (copiesAll le_rfl columns).bind fun between ahead columns all => Keeps.pure fun after further => TableStatement.create_under.mpr ?_
    exact ⟨admits_later name (ahead.trans further), admits_later absent (ahead.trans further),
      fun schema member => admits_later (schemas schema member) (ahead.trans further), fun column member => admits_later (all column member) further⟩
  | alter s =>
    obtain ⟨name, schemas, additions, alterations, drops⟩ := TableStatement.alter_under.mp under
    refine (copiesAll le_rfl additions).bind fun between ahead additions all => ?_
    have entries : custody.Allows between (s.alterations.mapM fun entry => do return (entry.1, ← entry.2.mapM copy)) fun after copied =>
        ∀ entry ∈ copied, entry.1.Everywhere (custody.Admits after) ∧ Value.AllEverywhere (custody.Admits after) entry.2 := by
      refine Keeps.mapM (fun _ _ further _ good => ⟨admits_later good.1 further, fun column member => admits_later (good.2 column member) further⟩)
        fun entry member => ?_
      have good := alterations entry member
      refine (copiesAll ahead fun column inside => admits_later (good.2 column inside) ahead).bind fun _ ahead' columns all => ?_
      exact Keeps.pure fun _ further => ⟨admits_later good.1 (ahead.trans (ahead'.trans further)),
        fun column inside => admits_later (all column inside) further⟩
    refine entries.bind fun between' ahead' alterations all' => Keeps.pure fun after further => TableStatement.alter_under.mpr ?_
    have whole : stage ≤ after := ahead.trans (ahead'.trans further)
    exact ⟨admits_later name whole, fun schema member => admits_later (schemas schema member) whole,
      fun column member => admits_later (all column member) (ahead'.trans further),
      fun entry member => ⟨admits_later (all' entry member).1 further, fun column inside => admits_later ((all' entry member).2 column inside) further⟩,
      fun name member => admits_later (drops name member) whole⟩
  | drop s =>
    obtain ⟨name, present, schemas⟩ := TableStatement.drop_under.mp under
    exact Keeps.pure fun _ further => TableStatement.drop_under.mpr ⟨admits_later name further, admits_later present further,
      fun schema member => admits_later (schemas schema member) further⟩

/-- A copy of an object that is seen, down to some depth. -/
private theorem allows_cloneWithin (depth : Nat) : ∀ after, stage ≤ after → ∀ value, value.Everywhere (custody.Admits after) →
    custody.Allows after (Session.cloneWithin depth value) fun after value => value.Everywhere (custody.Admits after) := by
  induction depth generalizing stage with
  | zero => exact fun _ _ _ _ => Keeps.throw _
  | succ depth ih =>
    intro start _ value all
    refine (allows_object? all).bind fun between ahead found good => ?_
    split
    · next label q =>
      have under := (good label _ rfl).2.2.2.1
      exact (allows_copy (under.1.mono (Rules.implies_lax _))).bind fun _ _ copied good =>
        allows_new (.query copied) ⟨good.1.mono (Rules.closed_implies _), good.2 under.2⟩
    · next label t =>
      have under := (good label _ rfl).2.2.2.1
      exact (allows_mapColumnsM under ih).bind fun _ _ statement copied => allows_new (.table statement) copied
    · exact Keeps.throw _
    · exact Keeps.throw _
    · exact Keeps.throw _
    · next label object noQuery noTable _ _ =>
      exact allows_new object (unhanded (good label _ rfl).2.2.2.1 fun query same => noQuery query (by rw [same]))

private theorem tableResults_permitted {statement : TableStatement Value}
    (under : (Object.table statement).Under (custody.rules stage custody.mine)) :
    ∀ entry ∈ Session.tableResults statement, custody.Permits stage entry.2 := by
  have seen : (Object.table statement).Under (custody.rules stage custody.seen) := under.mono rules_seen
  simp only [Session.tableResults, List.forall_mem_cons]
  refine ⟨⟨rfl, fun _ ahead _ _ => ?_⟩, ⟨rfl, fun _ ahead _ _ => ?_⟩, forall_nothing⟩
  · refine allows_get.bind fun _ further session reached => allows_builtResult fun first => ?_
    exact gives_tableBuild reached (seen.mono (rules_later (ahead.trans further))) first
  · refine allows_get.bind fun _ further session _ => ?_
    refine (allows_mapColumnsM (seen.mono (rules_later (ahead.trans further))) (allows_cloneWithin session.depth)).bind fun _ _ copy copied => ?_
    exact allows_newResult (.table copy) copied

variable {label : Label} (mine : custody.mine label)

include mine in
private theorem allows_editTable {edit : TableStatement.Edit Value} (good : custody.TableChange stage edit) :
    custody.Allows stage (Session.editTable label edit) fun _ _ => True := by
  refine (allows_object label).bind fun between ahead object found => ?_
  have under := found.2.2 mine
  split
  · next statement =>
    have changes : custody.Allows between (Act.build (edit.apply statement)) fun after changed =>
        (Object.table changed).Under (custody.rules after custody.mine) :=
      allows_build (fun _ => .bound) (fun before _ changed => (Object.table changed).Under (custody.rules before custody.mine))
        (fun _ further => TableStatement.gives_apply (under.mono (rules_later further)) (good.mono (rules_later (ahead.trans further))))
        (fun _ _ _ _ => (by rintro _ ⟨⟩)) fun _ _ _ _ good _ _ => good.mono (rules_later Stage.le_advance)
    exact changes.bind fun after further changed good => allows_put mine (found.1.trans_le further.1) (.table changed) good
  · exact Keeps.throw _

include mine in
theorem tableMethods_permitted {statement : TableStatement Value}
    (under : (Object.table statement).Under (custody.rules stage custody.mine)) :
    ∀ entry ∈ Session.tableMethods label statement, custody.Permits stage entry.2 :=
  List.forall_mem_append.mpr ⟨permits_changing (fun _ _ _ good => allows_editTable mine good) tableEdits_permitted,
    tableResults_permitted under⟩

end Tables

end Custody

end SqlCompose
