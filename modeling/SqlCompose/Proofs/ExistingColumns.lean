import Mathlib
import SqlCompose.Proofs.CustodyTables
import SqlCompose.Proofs.ValueEquality

/-!
# Existing columns

The statements that alter a table are read in order, against the columns that the table has at that point: a statement that adds or renames or drops a column changes what there is for the next one.

All of them name columns that exist if each column that has its name changed is changed last. Where several definitions stand under one name, each of them is written for the column of that name, also behind one that has given it another.
-/

namespace SqlCompose

/-- A statement that changes one thing of a table. Names, types and conditions are as they are written. -/
inductive Change where
  | add (name type : Text)
  | rename (old new : Text)
  | retype (name type : Text)
  | nullability (name : Text) (nullable : Bool)
  | setDefault (name value : Text)
  | dropDefault (name : Text)
  | check (name condition : Text)
  | primaryKey (name : Text)
  | unique (name : Text)
  | foreignKey (name target : Text)
  | drop (name : Text)
  deriving DecidableEq, Repr

namespace Change

/-- The statement for a table, with the name that the table has in the names of constraints. -/
def text (table tableName : Text) : Change → Text
  | add name type => Column.alterTable table ++ " ADD COLUMN " ++ Text.join " " [name, type]
  | rename old new => Column.alterTable table ++ " RENAME COLUMN " ++ old ++ " TO " ++ new
  | retype name type => Column.alterTable table ++ " ALTER COLUMN " ++ name ++ " TYPE " ++ type
  | nullability name nullable =>
    Column.alterTable table ++ " ALTER COLUMN " ++ name ++ if nullable then (" DROP NOT NULL" : Text) else " SET NOT NULL"
  | setDefault name value => Column.alterTable table ++ " ALTER COLUMN " ++ name ++ " SET DEFAULT " ++ value
  | dropDefault name => Column.alterTable table ++ " ALTER COLUMN " ++ name ++ " DROP DEFAULT"
  | check name condition => constraint name "check" ++ " CHECK (" ++ condition ++ ")"
  | primaryKey name => constraint name "pkey" ++ " PRIMARY KEY (" ++ name ++ ")"
  | unique name => constraint name "unique" ++ " UNIQUE (" ++ name ++ ")"
  | foreignKey name target => constraint name "fkey" ++ " FOREIGN KEY (" ++ name ++ ") " ++ target
  | drop name => Column.alterTable table ++ " DROP COLUMN " ++ name
where
  constraint (name kind : Text) : Text :=
    Column.alterTable table ++ " ADD CONSTRAINT " ++ tableName ++ "_" ++ name ++ "_" ++ kind

/-- The column that a statement needs: the one it names, if it does not add it. A check names none. -/
def needs? : Change → Option Text
  | add _ _ | check _ _ => none
  | rename name _ | retype name _ | nullability name _ | setDefault name _ | dropDefault name | primaryKey name | unique name
  | foreignKey name _ | drop name => some name

/-- The columns behind a statement. -/
def after (columns : List Text) : Change → List Text
  | add name _ => columns ++ [name]
  | rename old new => columns.filter (· ≠ old) ++ [new]
  | drop name => columns.filter (· ≠ name)
  | _ => columns

/-- Every statement finds the column that it needs. -/
def FindColumns (columns : List Text) : List Change → Prop
  | [] => True
  | change :: changes => (∀ name ∈ change.needs?, name ∈ columns) ∧ FindColumns (change.after columns) changes

/-- The columns behind some statements. -/
def afterAll (columns : List Text) (changes : List Change) : List Text :=
  changes.foldl after columns

theorem findColumns_append {columns : List Text} {changes others : List Change} :
    FindColumns columns (changes ++ others) ↔ FindColumns columns changes ∧ FindColumns (afterAll columns changes) others := by
  induction changes generalizing columns with
  | nil => exact (iff_of_eq (true_and _)).symm
  | cons change changes ih =>
    rw [List.cons_append, FindColumns, FindColumns, ih, and_assoc]
    rfl

/-- A statement about a column that is there and stays there. -/
def isAbout (name : Text) : Change → Prop
  | retype other _ | nullability other _ | setDefault other _ | dropDefault other | check other _ | primaryKey other
  | unique other | foreignKey other _ => other = name
  | add _ _ | rename _ _ | drop _ => False

variable {name : Text} {columns : List Text} {changes : List Change}

theorem after_of_isAbout {change : Change} (about : change.isAbout name) : change.after columns = columns := by
  cases change <;> first | rfl | exact about.elim

theorem afterAll_of_isAbout (about : ∀ change ∈ changes, change.isAbout name) : afterAll columns changes = columns := by
  induction changes with
  | nil => rfl
  | cons change changes ih =>
    obtain ⟨here, there⟩ := List.forall_mem_cons.mp about
    rw [afterAll, List.foldl_cons, after_of_isAbout here]
    exact ih there

theorem needs?_of_isAbout {change : Change} (about : change.isAbout name) : ∀ needed ∈ change.needs?, needed = name := by
  cases change <;> first | exact about.elim | (cases about; simp [needs?])

/-- Statements about one column find what they need if it is there. -/
theorem findColumns_of_isAbout (about : ∀ change ∈ changes, change.isAbout name) (there : name ∈ columns) : FindColumns columns changes := by
  induction changes with
  | nil => trivial
  | cons change changes ih =>
    obtain ⟨here, others⟩ := List.forall_mem_cons.mp about
    refine ⟨fun needed member => needs?_of_isAbout here needed member ▸ there, ?_⟩
    rw [after_of_isAbout here]
    exact ih others

end Change

/-! ### The statements of a column -/

namespace Column

/-- What sets the default. -/
def defaultChanges (column : Column) (name : Text) : Except Error (List Change) :=
  match column.default with
  | .null => .ok []
  | value => value.printed.map fun text => [.setDefault name text]

def checkChanges (column : Column) (name : Text) : Except Error (List Change) :=
  match column.condition with
  | .null => .ok []
  | value => value.printed.map fun text => [.check name text]

def foreignChanges (column : Column) (name : Text) : Except Error (List Change) :=
  match column.foreignKey with
  | none => .ok []
  | some key => key.build.map fun text => [.foreignKey name text]

/-- What adds the constraints. -/
def constraintChanges (column : Column) (name : Text) : Except Error (List Change) := do
  let check ← column.checkChanges name
  let key : List Change := if column.isPrimaryKey then [.primaryKey name] else []
  let unique : List Change := if column.isUnique then [.unique name] else []
  return check ++ key ++ unique ++ (← column.foreignChanges name)

variable {column : Column} {table tableName name : Text}

private theorem part_eq (opening closing : Text) (change : Text → Change) (value : Value)
    (written : ∀ text, opening ++ text ++ closing = (change text).text table tableName) :
    (match value with
      | .null => .ok []
      | value => value.printed.map fun text => [opening ++ text ++ closing] : Except Error (List Text)) =
    (match value with
      | .null => .ok []
      | value => value.printed.map fun text => [change text] : Except Error (List Change)).map (List.map (Change.text table tableName)) := by
  split
  · rfl
  · cases Value.printed _ with
    | error error => rfl
    | ok text => simp [Except.map, written]

theorem setDefault_eq (column : Column) (table tableName name : Text) : column.setDefault table name = (column.defaultChanges name).map (List.map (Change.text table tableName)) :=
  part_eq _ [] (.setDefault name) column.default fun _ => List.append_nil _

private theorem key_eq (opening : Text) (change : Text → Change) (key : Option ForeignKey)
    (written : ∀ text, opening ++ text = (change text).text table tableName) :
    (match key with
      | none => .ok []
      | some key => key.build.map fun text => [opening ++ text] : Except Error (List Text)) =
    (match key with
      | none => .ok []
      | some key => key.build.map fun text => [change text] : Except Error (List Change)).map (List.map (Change.text table tableName)) := by
  cases key with
  | none => rfl
  | some key =>
    cases done : key.build with
    | error error => simp [Except.map, done]
    | ok text => simp [Except.map, done, written]

theorem constraintStatements_eq (column : Column) (table tableName name : Text) : column.constraintStatements table tableName name =
    (column.constraintChanges name).map (List.map (Change.text table tableName)) := by
  have check : _ = Except.map (List.map (Change.text table tableName)) _ :=
    part_eq (Change.text.constraint table tableName name "check" ++ " CHECK (") ")" (.check name) column.condition fun _ => rfl
  have foreign : _ = Except.map (List.map (Change.text table tableName)) _ :=
    key_eq (Change.text.constraint table tableName name "fkey" ++ " FOREIGN KEY (" ++ name ++ ") ") (.foreignKey name) column.foreignKey
      fun _ => rfl
  refine (congrArg₂ (fun (check foreign : Except Error (List Text)) => do
    return (← check) ++
      (if column.isPrimaryKey then [(Change.primaryKey name).text table tableName] else []) ++
      (if column.isUnique then [(Change.unique name).text table tableName] else []) ++ (← foreign)) check foreign).trans ?_
  have parts (checks keys : Except Error (List Change)) : (do
        return (← checks.map (List.map (Change.text table tableName))) ++
          (if column.isPrimaryKey then [(Change.primaryKey name).text table tableName] else []) ++
          (if column.isUnique then [(Change.unique name).text table tableName] else []) ++
          (← keys.map (List.map (Change.text table tableName))) : Except Error (List Text)) =
      (do
        return (← checks) ++ (if column.isPrimaryKey then [.primaryKey name] else []) ++
          (if column.isUnique then [.unique name] else []) ++ (← keys) : Except Error (List Change)).map
        (List.map (Change.text table tableName)) := by
    cases checks with
    | error error => rfl
    | ok checks =>
      cases keys with
      | error error => rfl
      | ok keys =>
        refine congrArg Except.ok ?_
        cases column.isPrimaryKey <;> cases column.isUnique <;> simp
  exact parts (column.checkChanges name) (column.foreignChanges name)

/-- The statements that add a column. -/
def changesToAdd (column : Column) : Except Error (List Change) := do
  let type ← renderType column.type
  let added : Change := .add (← column.name.asText) (← type.asText)
  let name ← column.name.printed
  let default ← column.defaultChanges name
  return [added, .nullability name column.nullable] ++ default ++ (← column.constraintChanges name)

/-- The statement that gives a column its new name. -/
def renameChange (column : Column) (name : Text) (previous : Value) : Except Error (List Change) := do
  if previous.truthy then
    match previous.equal column.name with
    | none => throw .incomparable
    | some true => return []
    | some false => return [.rename (← previous.printed) name]
  else return []

/-- What becomes of the default of a column that is altered. -/
def defaultAfter (column : Column) (name : Text) : Except Error (List Change) :=
  match column.default with
  | .null => .ok (if column.dropsDefault then [.dropDefault name] else [])
  | _ => column.defaultChanges name

/-- The statements that make a column of a table into this one. -/
def changesToAlter (column : Column) (previous : Value) : Except Error (List Change) := do
  let name ← column.name.printed
  let renamed ← column.renameChange name previous
  let type ← (← renderType column.type).printed
  let default ← column.defaultAfter name
  return renamed ++ [.retype name type, .nullability name column.nullable] ++ default ++ (← column.constraintChanges name)

theorem rename_eq (column : Column) (table tableName name : Text) (previous : Value) : column.rename table name previous =
    (column.renameChange name previous).map (List.map (Change.text table tableName)) := by
  unfold rename renameChange
  split
  · cases previous.equal column.name with
    | none => rfl
    | some same => cases same <;> cases previous.printed <;> rfl
  · rfl

theorem alterDefault_eq (column : Column) (table tableName name : Text) : column.alterDefault table name =
    (column.defaultAfter name).map (List.map (Change.text table tableName)) := by
  unfold alterDefault defaultAfter
  cases column.default with
  | null => cases column.dropsDefault <;> rfl
  | _ => exact column.setDefault_eq table tableName name

theorem changes_of_buildToAdd {texts : List Text} (built : (column.buildToAdd (.text table) (.text tableName)).Yields texts) :
    ∃ changes, column.changesToAdd = .ok changes ∧ texts = changes.map (Change.text table tableName) := by
  obtain ⟨_, -, built⟩ := built.bind
  obtain ⟨_, shown, built⟩ := built.bind
  obtain rfl := Except.ok.inj (Build.yields_lift.mp shown)
  obtain ⟨bare, defined, built⟩ := built.bind
  obtain ⟨name, named, built⟩ := built.bind
  obtain ⟨default, set, built⟩ := built.bind
  obtain ⟨_, shown, built⟩ := built.bind
  obtain rfl := Except.ok.inj (Build.yields_lift.mp shown)
  obtain ⟨constraints, constrained, built⟩ := built.bind
  rw [Build.yields_lift, column.setDefault_eq table tableName] at set
  rw [Build.yields_lift, constraintStatements_eq] at constrained
  obtain ⟨defaults, found, rfl⟩ := Outcome.map_eq_ok.mp set
  obtain ⟨constraints, inside, rfl⟩ := Outcome.map_eq_ok.mp constrained
  obtain ⟨_, -, defined⟩ := defined.bind
  obtain ⟨type, rendered, defined⟩ := defined.bind
  obtain ⟨nothing, none, defined⟩ := defined.bind
  obtain rfl := Build.yields_pure.mp none
  obtain ⟨added, first, defined⟩ := defined.bind
  obtain ⟨typeText, second, defined⟩ := defined.bind
  obtain rfl := Build.yields_pure.mp defined
  rw [Build.yields_lift] at named rendered first second
  refine ⟨[.add added typeText, .nullability name column.nullable] ++ defaults ++ constraints, ?_, ?_⟩
  · simp only [changesToAdd, rendered, first, second, named, found, inside, Outcome.bind_ok, Outcome.pure_eq]
  · rw [← Build.yields_pure.mp built, List.map_append, List.map_append]
    rfl

theorem changes_of_buildToAlter {previous : Value} {texts : List Text}
    (built : (column.buildToAlter (.text table) (.text tableName) previous).Yields texts) :
    ∃ changes, column.changesToAlter previous = .ok changes ∧ texts = changes.map (Change.text table tableName) := by
  obtain ⟨_, -, built⟩ := built.bind
  obtain ⟨_, shown, built⟩ := built.bind
  obtain rfl := Except.ok.inj (Build.yields_lift.mp shown)
  obtain ⟨name, named, built⟩ := built.bind
  obtain ⟨renamed, before, built⟩ := built.bind
  obtain ⟨type, rendered, built⟩ := built.bind
  obtain ⟨typeText, printed, built⟩ := built.bind
  obtain ⟨default, set, built⟩ := built.bind
  obtain ⟨_, shown, built⟩ := built.bind
  obtain rfl := Except.ok.inj (Build.yields_lift.mp shown)
  obtain ⟨constraints, constrained, built⟩ := built.bind
  rw [Build.yields_lift, column.rename_eq table tableName] at before
  rw [Build.yields_lift, column.alterDefault_eq table tableName] at set
  rw [Build.yields_lift, constraintStatements_eq] at constrained
  rw [Build.yields_lift] at named rendered printed
  obtain ⟨first, moved, rfl⟩ := Outcome.map_eq_ok.mp before
  obtain ⟨defaults, found, rfl⟩ := Outcome.map_eq_ok.mp set
  obtain ⟨constraints, inside, rfl⟩ := Outcome.map_eq_ok.mp constrained
  refine ⟨first ++ [.retype name typeText, .nullability name column.nullable] ++ defaults ++ constraints, ?_, ?_⟩
  · simp only [changesToAlter, named, moved, rendered, printed, found, inside, Outcome.bind_ok, Outcome.pure_eq]
  · rw [← Build.yields_pure.mp built, List.map_append, List.map_append, List.map_append]
    rfl

/-! ### What they are about -/

private theorem isAbout_defaultChanges {changes : List Change} (done : column.defaultChanges name = .ok changes) :
    ∀ change ∈ changes, change.isAbout name := by
  unfold defaultChanges at done
  split at done
  · rw [← Except.ok.inj done]
    exact List.forall_mem_nil _
  · obtain ⟨text, -, rfl⟩ := Outcome.map_eq_ok.mp done
    exact List.forall_mem_singleton.mpr rfl

private theorem isAbout_defaultAfter {changes : List Change} (done : column.defaultAfter name = .ok changes) :
    ∀ change ∈ changes, change.isAbout name := by
  unfold defaultAfter at done
  split at done
  · rw [← Except.ok.inj done]
    split
    · exact List.forall_mem_singleton.mpr rfl
    · exact List.forall_mem_nil _
  · exact isAbout_defaultChanges done

private theorem isAbout_constraintChanges {changes : List Change} (done : column.constraintChanges name = .ok changes) :
    ∀ change ∈ changes, change.isAbout name := by
  obtain ⟨checks, checked, done⟩ := Outcome.bind_eq_ok.mp done
  obtain ⟨keys, keyed, done⟩ := Outcome.bind_eq_ok.mp done
  rw [← Except.ok.inj done]
  simp only [List.forall_mem_append]
  refine ⟨⟨⟨?_, ?_⟩, ?_⟩, ?_⟩
  · unfold checkChanges at checked
    split at checked
    · rw [← Except.ok.inj checked]
      exact List.forall_mem_nil _
    · obtain ⟨text, -, rfl⟩ := Outcome.map_eq_ok.mp checked
      exact List.forall_mem_singleton.mpr rfl
  · split
    · exact List.forall_mem_singleton.mpr rfl
    · exact List.forall_mem_nil _
  · split
    · exact List.forall_mem_singleton.mpr rfl
    · exact List.forall_mem_nil _
  · unfold foreignChanges at keyed
    split at keyed
    · rw [← Except.ok.inj keyed]
      exact List.forall_mem_nil _
    · obtain ⟨text, -, rfl⟩ := Outcome.map_eq_ok.mp keyed
      exact List.forall_mem_singleton.mpr rfl

end Column

theorem Value.equal_text (left right : Text) : (Value.text left).equal (.text right) = some (decide (left = right)) := by
  have scalar : (Value.text left).equal (.text right) = some (Worth.text left == Worth.text right) := by
    simp [equal, equalScalar, isNumeric, worth?]
  rw [scalar]
  by_cases same : left = right <;> simp [same]

/-- Statements that add a column and go on about it. -/
def Change.AddColumn (name : Text) (changes : List Change) : Prop :=
  ∃ type rest, changes = .add name type :: rest ∧ ∀ change ∈ rest, change.isAbout name

/-- Statements that alter the column of a current name, and give it the new name before that, if the names differ. -/
def Change.AlterColumn (names : Text × Text) (changes : List Change) : Prop :=
  ∃ type rest, changes = (if names.1 = [] ∨ names.1 = names.2 then [] else [.rename names.1 names.2]) ++ .retype names.2 type :: rest ∧
    ∀ change ∈ rest, change.isAbout names.2

namespace Column

variable {column : Column} {name : Text} {changes : List Change}

theorem addColumn_of_changesToAdd (named : column.name = .text name) (done : column.changesToAdd = .ok changes) :
    Change.AddColumn name changes := by
  obtain ⟨type, -, done⟩ := Outcome.bind_eq_ok.mp done
  obtain ⟨added, first, done⟩ := Outcome.bind_eq_ok.mp done
  obtain ⟨typeText, -, done⟩ := Outcome.bind_eq_ok.mp done
  obtain ⟨printed, second, done⟩ := Outcome.bind_eq_ok.mp done
  obtain ⟨defaults, set, done⟩ := Outcome.bind_eq_ok.mp done
  obtain ⟨constraints, constrained, done⟩ := Outcome.bind_eq_ok.mp done
  rw [named] at first second
  obtain rfl := Except.ok.inj first
  obtain rfl := Except.ok.inj second
  refine ⟨typeText, .nullability name column.nullable :: (defaults ++ constraints), (Except.ok.inj done).symm, ?_⟩
  rw [List.forall_mem_cons, List.forall_mem_append]
  exact ⟨rfl, isAbout_defaultChanges set, isAbout_constraintChanges constrained⟩

theorem alterColumn_of_changesToAlter {previous : Text} (named : column.name = .text name)
    (done : column.changesToAlter (.text previous) = .ok changes) : Change.AlterColumn (previous, name) changes := by
  obtain ⟨printed, second, done⟩ := Outcome.bind_eq_ok.mp done
  obtain ⟨renamed, moved, done⟩ := Outcome.bind_eq_ok.mp done
  obtain ⟨type, -, done⟩ := Outcome.bind_eq_ok.mp done
  obtain ⟨typeText, -, done⟩ := Outcome.bind_eq_ok.mp done
  obtain ⟨defaults, set, done⟩ := Outcome.bind_eq_ok.mp done
  obtain ⟨constraints, constrained, done⟩ := Outcome.bind_eq_ok.mp done
  rw [named] at second
  obtain rfl := Except.ok.inj second
  have shape : renamed = if previous = [] ∨ previous = name then [] else [.rename previous name] := by
    unfold renameChange at moved
    rw [named, Value.equal_text] at moved
    cases previous with
    | nil => exact (Except.ok.inj moved).symm
    | cons c previous =>
      by_cases same : c :: previous = name
      · rw [decide_eq_true same] at moved
        rw [if_pos (.inr same)]
        exact (Except.ok.inj moved).symm
      · rw [decide_eq_false same] at moved
        rw [if_neg (not_or.mpr ⟨List.cons_ne_nil _ _, same⟩)]
        exact (Except.ok.inj moved).symm
  refine ⟨typeText, .nullability name column.nullable :: (defaults ++ constraints), ?_, ?_⟩
  · rw [← Except.ok.inj done, shape, List.append_assoc, List.append_assoc]
    rfl
  · rw [List.forall_mem_cons, List.forall_mem_append]
    exact ⟨rfl, isAbout_defaultAfter set, isAbout_constraintChanges constrained⟩

end Column

/-! ### Reading the statements in order -/

namespace Change

variable {columns added dropped : List Text} {altered : List (Text × Text)} {blocks : List (List Change)}

theorem afterAll_append (columns : List Text) (changes others : List Change) :
    afterAll columns (changes ++ others) = afterAll (afterAll columns changes) others :=
  List.foldl_append

/-- Columns are added behind the others, and nothing that is said about them is said too early. -/
theorem find_added (columns : List Text) (adds : List.Forall₂ AddColumn added blocks) :
    FindColumns columns blocks.flatten ∧ afterAll columns blocks.flatten = columns ++ added := by
  induction adds generalizing columns with
  | nil => exact ⟨trivial, (List.append_nil columns).symm⟩
  | @cons name block added blocks add _ ih =>
    obtain ⟨type, rest, rfl, about⟩ := add
    have own : name ∈ columns ++ [name] := List.mem_append_right _ List.mem_cons_self
    have behind : afterAll columns (.add name type :: rest) = columns ++ [name] := afterAll_of_isAbout about
    obtain ⟨found, further⟩ := ih (columns ++ [name])
    rw [List.flatten_cons, findColumns_append, afterAll_append, behind]
    have here : FindColumns columns (.add name type :: rest) := ⟨by rintro _ ⟨⟩, findColumns_of_isAbout about own⟩
    refine ⟨⟨here, found⟩, ?_⟩
    rw [further, List.append_assoc]
    rfl

/-- The columns behind an altered one. -/
def altering (columns : List Text) (names : Text × Text) : List Text :=
  if names.1 = [] ∨ names.1 = names.2 then columns else columns.filter (· ≠ names.1) ++ [names.2]

/-- A column is found under its current name; without a current name it has to be there under the other one. -/
theorem find_alterColumn (columns : List Text) {names : Text × Text} {block : List Change} (alter : AlterColumn names block) :
    (FindColumns columns block ↔ if names.1 = [] then names.2 ∈ columns else names.1 ∈ columns) ∧
      afterAll columns block = altering columns names := by
  obtain ⟨type, rest, rfl, about⟩ := alter
  have all : ∀ change ∈ retype names.2 type :: rest, change.isAbout names.2 := List.forall_mem_cons.mpr ⟨rfl, about⟩
  have named (columns : List Text) : FindColumns columns (retype names.2 type :: rest) ↔ names.2 ∈ columns :=
    ⟨fun found => found.1 _ rfl, findColumns_of_isAbout all⟩
  rw [altering]
  split
  · next kept =>
    refine ⟨(named columns).trans ?_, afterAll_of_isAbout all⟩
    split
    · exact Iff.rfl
    · next nonempty => rw [kept.resolve_left nonempty]
  · next moved =>
    have own : names.2 ∈ columns.filter (· ≠ names.1) ++ [names.2] := List.mem_append_right _ List.mem_cons_self
    refine ⟨?_, afterAll_of_isAbout all⟩
    rw [if_neg (not_or.mp moved).1]
    exact ⟨fun found => found.1 _ rfl, fun there => ⟨by rintro _ ⟨⟩; exact there, (named _).mpr own⟩⟩

theorem mem_altering {names : Text × Text} {name : Text} (other : name ≠ names.1) :
    name ∈ altering columns names ↔ name ∈ columns ∨ (name = names.2 ∧ ¬ (names.1 = [] ∨ names.1 = names.2)) := by
  unfold altering
  split
  · next kept => simp [kept]
  · next moved => simp [moved, other]

theorem mem_afterAll_altered (alters : List.Forall₂ AlterColumn altered blocks) {name : Text} (there : name ∈ columns)
    (unaltered : ∀ names ∈ altered, name ≠ names.1) : name ∈ afterAll columns blocks.flatten := by
  induction alters generalizing columns with
  | nil => exact there
  | cons alter _ ih =>
    obtain ⟨here, others⟩ := List.forall_mem_cons.mp unaltered
    rw [List.flatten_cons, afterAll_append, (find_alterColumn _ alter).2]
    exact ih ((mem_altering here).mpr (.inl there)) others

/-- No definition but the last of its current name gives a new name. -/
def RenamedLast (altered : List (Text × Text)) : Prop :=
  altered.Pairwise fun earlier later => earlier.1 = later.1 → earlier.2 = earlier.1

theorem find_altered (alters : List.Forall₂ AlterColumn altered blocks) (current : ∀ names ∈ altered, names.1 ∈ columns)
    (given : ∀ names ∈ altered, names.1 ≠ []) (last : RenamedLast altered) : FindColumns columns blocks.flatten := by
  induction alters generalizing columns with
  | nil => trivial
  | @cons names block altered blocks alter _ ih =>
    obtain ⟨here, others⟩ := List.forall_mem_cons.mp current
    obtain ⟨named, allNamed⟩ := List.forall_mem_cons.mp given
    obtain ⟨behind, rest⟩ := List.pairwise_cons.mp last
    obtain ⟨found, after⟩ := find_alterColumn columns alter
    rw [List.flatten_cons, findColumns_append, after]
    refine ⟨found.mpr (by rwa [if_neg named]), ih (fun later member => ?_) allNamed rest⟩
    by_cases same : later.1 = names.1
    · rw [altering, if_pos (.inr (behind later member same.symm).symm)]
      exact others later member
    · exact (mem_altering same).mpr (.inl (others later member))

/-- A name that is not there, and that nothing is renamed to, is no current name of a definition that finds its column. -/
theorem ne_current_of_find (alters : List.Forall₂ AlterColumn altered blocks) {name : Text} (some : name ≠ []) (missing : name ∉ columns)
    (new : ∀ names ∈ altered, names.2 ≠ names.1 → names.2 ≠ name) (found : FindColumns columns blocks.flatten) :
    ∀ names ∈ altered, names.1 ≠ name := by
  induction alters generalizing columns with
  | nil => exact List.forall_mem_nil _
  | @cons names block altered blocks alter _ ih =>
    obtain ⟨here, others⟩ := List.forall_mem_cons.mp new
    rw [List.flatten_cons, findColumns_append, (find_alterColumn _ alter).2] at found
    have first := (find_alterColumn _ alter).1.mp found.1
    have different : names.1 ≠ name := by
      rintro rfl
      rw [if_neg some] at first
      exact missing first
    refine List.forall_mem_cons.mpr ⟨different, ih ?_ others found.2⟩
    rw [mem_altering different.symm]
    rintro (there | ⟨rfl, moved⟩)
    · exact missing there
    · exact here (fun same => moved (.inr same.symm)) rfl

theorem of_find_altered (alters : List.Forall₂ AlterColumn altered blocks) (named : ∀ names ∈ altered, names.2 ≠ [])
    (new : ∀ names ∈ altered, names.2 ≠ names.1 → names.2 ∉ columns ∧ ∀ other ∈ altered, names.2 ≠ other.1)
    (distinct : ((altered.filter fun names => names.2 ≠ names.1).map (·.2)).Nodup) (found : FindColumns columns blocks.flatten) :
    (∀ names ∈ altered, names.1 ≠ []) ∧ RenamedLast altered := by
  induction alters generalizing columns with
  | nil => exact ⟨List.forall_mem_nil _, .nil⟩
  | @cons names block altered blocks alter alters ih =>
    obtain ⟨own, allOwn⟩ := List.forall_mem_cons.mp named
    obtain ⟨here, others⟩ := List.forall_mem_cons.mp new
    rw [List.flatten_cons, findColumns_append, (find_alterColumn _ alter).2] at found
    have first := (find_alterColumn _ alter).1.mp found.1
    have some : names.1 ≠ [] := by
      intro none
      rw [if_pos none] at first
      exact (here (fun same => own (same.trans none))).1 first
    by_cases kept : names.2 = names.1
    · rw [altering, if_pos (.inr kept.symm)] at found
      rw [List.filter_cons_of_neg (by simpa using kept)] at distinct
      obtain ⟨given, last⟩ := ih allOwn (fun other member moved =>
        ⟨(others other member moved).1, (List.forall_mem_cons.mp (others other member moved).2).2⟩) distinct found.2
      exact ⟨List.forall_mem_cons.mpr ⟨some, given⟩, List.pairwise_cons.mpr ⟨fun _ _ _ => kept, last⟩⟩
    · rw [List.filter_cons_of_pos (by simpa using kept), List.map_cons, List.nodup_cons] at distinct
      obtain ⟨fresh, distinct⟩ := distinct
      have gone : names.1 ∉ altering columns names := by
        rw [altering, if_neg (not_or.mpr ⟨some, Ne.symm kept⟩), List.mem_append, List.mem_filter, List.mem_singleton]
        rintro (⟨_, different⟩ | same)
        · simp at different
        · exact kept same.symm
      have later := ne_current_of_find alters some gone
        (fun other member moved => (List.forall_mem_cons.mp (others other member moved).2).1) found.2
      have newer : ∀ other ∈ altered, other.2 ≠ other.1 → other.2 ∉ altering columns names ∧ ∀ another ∈ altered, other.2 ≠ another.1 := by
        intro other member moved
        obtain ⟨absent, current⟩ := others other member moved
        obtain ⟨notHere, elsewhere⟩ := List.forall_mem_cons.mp current
        refine ⟨?_, elsewhere⟩
        rw [mem_altering notHere]
        rintro (there | ⟨same, -⟩)
        · exact absent there
        · exact fresh (same ▸ List.mem_map_of_mem (List.mem_filter.mpr ⟨member, by simpa using moved⟩))
      obtain ⟨given, last⟩ := ih allOwn newer distinct found.2
      exact ⟨List.forall_mem_cons.mpr ⟨some, given⟩,
        List.pairwise_cons.mpr ⟨fun other member same => absurd same.symm (later other member), last⟩⟩

theorem find_dropped : FindColumns columns (dropped.map .drop) ↔ (∀ name ∈ dropped, name ∈ columns) ∧ dropped.Nodup := by
  induction dropped generalizing columns with
  | nil => simp [FindColumns]
  | cons name dropped ih =>
    have first : (∀ needed ∈ (drop name).needs?, needed ∈ columns) ↔ name ∈ columns :=
      ⟨fun all => all _ rfl, fun there => by rintro _ ⟨⟩; exact there⟩
    rw [List.map_cons, FindColumns, first, ih, List.forall_mem_cons, List.nodup_cons, after]
    constructor
    · rintro ⟨here, there, distinct⟩
      refine ⟨⟨here, fun other member => (List.mem_filter.mp (there other member)).1⟩, fun again => ?_, distinct⟩
      simpa using (List.mem_filter.mp (there name again)).2
    · rintro ⟨⟨here, there⟩, fresh, distinct⟩
      refine ⟨here, fun other member => List.mem_filter.mpr ⟨there other member, ?_⟩, distinct⟩
      exact decide_eq_true fun same : other = name => fresh (same ▸ member)

end Change

/-! ### The statements of a table -/

namespace AlterTable

/-- The statements that a table is altered by: for the columns that are added, that are altered, and that are dropped. -/
def changes (alter : AlterTable Column) : Except Error (List Change) := do
  let added ← alter.additions.mapM Column.changesToAdd
  let altered ← alter.alterations.mapM fun (previous, columns) => columns.mapM fun column => column.changesToAlter previous
  let dropped ← alter.drops.mapM fun name => do return Change.drop (← name.printed)
  return added.flatten ++ (altered.map List.flatten).flatten ++ dropped

/-- The names are texts: of the columns that are added, of those that are altered, each with its current name, and of those that are dropped. -/
structure HasNames (alter : AlterTable Column) (added : List Text) (altered : List (Text × Text)) (dropped : List Text) : Prop where
  added : alter.additions.map (·.name) = added.map .text
  altered : (alter.alterations.flatMap fun (previous, columns) => columns.map fun column => (previous, column.name)) =
    altered.map fun names => (.text names.1, .text names.2)
  dropped : alter.drops = dropped.map .text

variable {alter : AlterTable Column} {added dropped : List Text} {altered : List (Text × Text)} {changes : List Change}

private theorem addColumns_of_done {columns : List Column} {blocks : List (List Change)}
    (done : List.Forall₂ (fun (column : Column) block => column.changesToAdd = .ok block) columns blocks)
    (named : columns.map (·.name) = added.map .text) : List.Forall₂ Change.AddColumn added blocks := by
  induction done generalizing added with
  | nil =>
    obtain rfl := List.map_eq_nil_iff.mp named.symm
    exact .nil
  | cons here _ ih =>
    obtain ⟨name, added, rfl, own, others⟩ := List.map_eq_cons_iff.mp named.symm
    exact .cons (Column.addColumn_of_changesToAdd own.symm here) (ih others.symm)

private theorem alterColumns_of_done {columns : List (Value × Column)} {blocks : List (List Change)}
    (done : List.Forall₂ (fun (given : Value × Column) block => given.2.changesToAlter given.1 = .ok block) columns blocks)
    (named : (columns.map fun given => (given.1, given.2.name)) = altered.map fun names => (.text names.1, .text names.2)) :
    List.Forall₂ Change.AlterColumn altered blocks := by
  induction done generalizing altered with
  | nil =>
    obtain rfl := List.map_eq_nil_iff.mp named.symm
    exact .nil
  | @cons given block columns blocks here _ ih =>
    obtain ⟨names, altered, rfl, own, others⟩ := List.map_eq_cons_iff.mp named.symm
    obtain ⟨current, new⟩ := Prod.mk.inj own
    rw [← current] at here
    exact .cons (Column.alterColumn_of_changesToAlter new.symm here) (ih others.symm)

private theorem ungrouped {groups : List (Value × List Column)} {results : List (List (List Change))}
    (done : List.Forall₂ (fun group result => (group.2.mapM fun column => column.changesToAlter group.1) = .ok result) groups results) :
    List.Forall₂ (fun (given : Value × Column) block => given.2.changesToAlter given.1 = .ok block)
      (groups.flatMap fun group => group.2.map fun column => (group.1, column)) results.flatten := by
  induction done with
  | nil => exact .nil
  | cons here _ ih =>
    rw [List.flatMap_cons, List.flatten_cons]
    exact List.rel_append (List.forall₂_map_left_iff.mpr (Outcome.mapM_eq_ok.mp here)) ih

theorem blocks_of_changes (names : alter.HasNames added altered dropped) (planned : alter.changes = .ok changes) :
    ∃ adding altering, List.Forall₂ Change.AddColumn added adding ∧ List.Forall₂ Change.AlterColumn altered altering ∧
      changes = adding.flatten ++ altering.flatten ++ dropped.map .drop := by
  obtain ⟨adding, first, planned⟩ := Outcome.bind_eq_ok.mp planned
  obtain ⟨altering, second, planned⟩ := Outcome.bind_eq_ok.mp planned
  obtain ⟨dropping, third, planned⟩ := Outcome.bind_eq_ok.mp planned
  rw [Outcome.mapM_eq_ok] at first second third
  refine ⟨adding, altering.flatten, addColumns_of_done first names.added, alterColumns_of_done (ungrouped second) ?_, ?_⟩
  · rw [← names.altered, List.map_flatMap]
    simp only [List.map_map]
    rfl
  · have drops : dropping = dropped.map .drop := by
      rw [names.dropped, List.forall₂_map_left_iff] at third
      have each : List.Forall₂ (· = ·) (dropped.map Change.drop) dropping :=
        List.forall₂_map_left_iff.mpr (third.imp fun _ _ done => Except.ok.inj done)
      rw [List.forall₂_eq_eq_eq] at each
      exact each.symm
    rw [← Except.ok.inj planned, drops, List.flatten_flatten]

/-- Whether all statements find their columns, in a table that has the current names and the dropped ones. -/
theorem findColumns_iff (names : alter.HasNames added altered dropped) (planned : alter.changes = .ok changes)
    (named : ∀ pair ∈ altered, pair.2 ≠ []) {columns : List Text} (current : ∀ pair ∈ altered, pair.1 ∈ columns)
    (there : ∀ name ∈ dropped, name ∈ columns ∧ ∀ pair ∈ altered, name ≠ pair.1)
    (new : ∀ pair ∈ altered, pair.2 ≠ pair.1 → pair.2 ∉ columns ∧ pair.2 ∉ added)
    (distinct : ((altered.filter fun pair => pair.2 ≠ pair.1).map (·.2)).Nodup) :
    Change.FindColumns columns changes ↔ (∀ pair ∈ altered, pair.1 ≠ []) ∧ Change.RenamedLast altered ∧ dropped.Nodup := by
  obtain ⟨adding, altering, adds, alters, rfl⟩ := blocks_of_changes names planned
  obtain ⟨found, behind⟩ := Change.find_added columns adds
  rw [List.append_assoc, Change.findColumns_append, behind, Change.findColumns_append, Change.find_dropped]
  constructor
  · rintro ⟨-, altered', -, once⟩
    have fresh : ∀ pair ∈ altered, pair.2 ≠ pair.1 → pair.2 ∉ columns ++ added ∧ ∀ other ∈ altered, pair.2 ≠ other.1 := by
      intro pair member moved
      obtain ⟨absent, unadded⟩ := new pair member moved
      refine ⟨fun inside => (List.mem_append.mp inside).elim absent unadded, fun other inside same => absent ?_⟩
      rw [same]
      exact current other inside
    obtain ⟨given, last⟩ := Change.of_find_altered alters named fresh distinct altered'
    exact ⟨given, last, once⟩
  · rintro ⟨given, last, once⟩
    have inside : ∀ pair ∈ altered, pair.1 ∈ columns ++ added := fun pair member => List.mem_append_left _ (current pair member)
    refine ⟨found, Change.find_altered alters inside given last, fun name member => ?_, once⟩
    exact Change.mem_afterAll_altered alters (List.mem_append_left _ (there name member).1) (there name member).2

end AlterTable

/-! ### Columns in a session -/

/-- The column with a name that a value refers to. -/
def Session.ShowsColumn (session : Session) (value : Value) (column : Column) : Prop :=
  (∃ label face, value = .object label face ∧ session.object? label = some (.column column)) ∧ column.name.truthy

/-- The statement on a table with the columns that its values refer to. -/
structure AlterTable.Refers (session : Session) (alter : AlterTable Value) (resolved : AlterTable Column) : Prop where
  target : resolved.target = alter.target
  additions : List.Forall₂ session.ShowsColumn alter.additions resolved.additions
  alterations : List.Forall₂ (fun given group => group.1 = given.1 ∧ List.Forall₂ session.ShowsColumn given.2 group.2)
    alter.alterations resolved.alterations
  drops : resolved.drops = alter.drops

theorem AlterTable.Refers.ne_nil_of_hasNames {session : Session} {alter : AlterTable Value} {resolved : AlterTable Column}
    {added dropped : List Text} {altered : List (Text × Text)} (refers : alter.Refers session resolved)
    (names : resolved.HasNames added altered dropped) : ∀ pair ∈ altered, pair.2 ≠ [] := by
  intro pair member empty
  have inside : (Value.text pair.1, Value.text pair.2) ∈ altered.map fun names => (Value.text names.1, Value.text names.2) :=
    List.mem_map.mpr ⟨pair, member, rfl⟩
  rw [← names.altered] at inside
  obtain ⟨group, among, inside⟩ := List.mem_flatMap.mp inside
  obtain ⟨column, own, same⟩ := List.mem_map.mp inside
  obtain ⟨_, -, -, columns⟩ := exists_of_mem_right refers.alterations among
  obtain ⟨_, -, -, given⟩ := exists_of_mem_right columns own
  rw [(Prod.mk.inj same).2, empty] at given
  cases given

namespace Session

variable {session : Session} {define : Object → Build Value} {value : Value} {table tableName : Text} {texts : List Text}

private theorem truthy_of_requireNamed {column : Column} (named : column.requireNamed.Yields ()) : column.name.truthy := by
  unfold Column.requireNamed at named
  have refused (omission : Omission) : ¬ (Build.failFor Column.logger omission : Build Unit).Yields () := fun done => by
    obtain ⟨_, -, thrown⟩ := done.bind
    exact Build.not_yields_throw thrown
  split at named
  · next here _ => exact here
  · exact absurd named (refused _)
  · exact absurd named (refused _)
  · next here _ => exact here

theorem changes_of_add (built : ((session.columnPart define value).add table tableName).Yields texts) :
    ∃ column changes, session.ShowsColumn value column ∧ column.changesToAdd = .ok changes ∧
      texts = changes.map (Change.text table tableName) := by
  unfold columnPart at built
  split at built
  · next label face =>
    split at built
    · next column shown =>
      obtain ⟨changes, planned, written⟩ := Column.changes_of_buildToAdd built
      exact ⟨column, changes, ⟨⟨label, face, rfl, shown⟩, truthy_of_requireNamed built.bind.choose_spec.1⟩, planned, written⟩
    · exact absurd built Build.not_yields_throw
    · exact absurd built Build.not_yields_throw
  · exact absurd built Build.not_yields_throw

theorem changes_of_alter {previous : Value} (built : ((session.columnPart define value).alter table tableName previous).Yields texts) :
    ∃ column changes, session.ShowsColumn value column ∧ column.changesToAlter previous = .ok changes ∧
      texts = changes.map (Change.text table tableName) := by
  unfold columnPart at built
  split at built
  · next label face =>
    split at built
    · next column shown =>
      obtain ⟨changes, planned, written⟩ := Column.changes_of_buildToAlter built
      exact ⟨column, changes, ⟨⟨label, face, rfl, shown⟩, truthy_of_requireNamed built.bind.choose_spec.1⟩, planned, written⟩
    · exact absurd built Build.not_yields_throw
    · exact absurd built Build.not_yields_throw
  · exact absurd built Build.not_yields_throw

/-- Items that are built one after another have been read one after another. -/
private theorem exists_read {α β γ δ : Type} {run : α → Build δ} {related : α → β → Prop} {read : β → Except Error γ} {write : γ → δ}
    (each : ∀ item result, (run item).Yields result → ∃ found value, related item found ∧ read found = .ok value ∧ result = write value)
    {items : List α} {results : List δ} (yields : (items.mapM run).Yields results) :
    ∃ founds values, List.Forall₂ related items founds ∧ founds.mapM read = .ok values ∧ results = values.map write := by
  have all := yields.mapM
  clear yields
  induction all with
  | nil => exact ⟨[], [], .nil, rfl, rfl⟩
  | cons here _ ih =>
    obtain ⟨found, value, first, second, rfl⟩ := each _ _ here
    obtain ⟨founds, values, further, done, rfl⟩ := ih
    refine ⟨found :: founds, value :: values, .cons first further, ?_, rfl⟩
    exact Outcome.mapM_eq_ok.mpr (.cons second (Outcome.mapM_eq_ok.mp done))

theorem changes_of_group {given : Value × List Value} {results : List (List Text)}
    (built : ((given.2.map (session.columnPart define)).mapM fun (part : ColumnPart) => part.alter table tableName given.1).Yields results) :
    ∃ (group : Value × List Column) (blocks : List (List Change)),
      (group.1 = given.1 ∧ List.Forall₂ session.ShowsColumn given.2 group.2) ∧
      (group.2.mapM fun column => column.changesToAlter group.1) = .ok blocks ∧
      results = blocks.map (List.map (Change.text table tableName)) := by
  rw [List.mapM_map] at built
  obtain ⟨columns, blocks, shown, planned, rfl⟩ := exists_read (fun _ _ => changes_of_alter) built
  exact ⟨(given.1, columns), blocks, ⟨rfl, shown⟩, planned, rfl⟩

theorem change_of_drop (tableName : Text) {name : Value} {text : Text}
    (built : (do return Column.alterTable table ++ " DROP COLUMN " ++ (← name.printed) : Build Text).Yields text) :
    ∃ (dropped : Value) (change : Change), dropped = name ∧ (do return Change.drop (← dropped.printed) : Except Error Change) = .ok change ∧
      text = change.text table tableName := by
  obtain ⟨printed, done, same⟩ := built.bind
  obtain rfl := Build.yields_pure.mp same
  exact ⟨name, .drop printed, rfl, by rw [Build.yields_lift.mp done]; rfl, rfl⟩

/-- A statement that alters a table is built as the texts of its changes. -/
theorem changes_of_build {alter : AlterTable Value} (built : (session.build (.table (.alter alter))).Yields value) :
    ∃ resolved changes table name texts label, alter.Refers session resolved ∧ resolved.changes = .ok changes ∧
      alter.target.quoted = .ok table ∧ alter.target.name.asText = .ok name ∧
      alter.target.finishAll (changes.map fun change => change.text table (TableTarget.bareName name) ++ ";") = .ok texts ∧
      value = .list label (texts.map .text) := by
  have whole : session.build (.table (.alter alter)) = (do
      let texts ← (⟨alter.target, alter.additions.map (session.columnPart (session.buildWithin session.objects.length)),
        alter.alterations.map fun group => (group.1, group.2.map (session.columnPart (session.buildWithin session.objects.length))),
        alter.drops⟩ : AlterTable ColumnPart).build
      return Value.list (← Build.freshLabel) (texts.map .text)) := by
    unfold build depth buildWithin
    simp only [TableStatement.mapColumns, TableStatement.mapColumnsM]
    simp [TableStatement.build]
  rw [whole] at built
  obtain ⟨texts, built, listed⟩ := built.bind
  obtain ⟨label, -, listed⟩ := listed.bind
  obtain ⟨_, -, built⟩ := built.bind
  obtain ⟨table, quoted, built⟩ := built.bind
  obtain ⟨name, read, built⟩ := built.bind
  obtain ⟨added, first, built⟩ := built.bind
  obtain ⟨altered, second, built⟩ := built.bind
  obtain ⟨dropped, third, built⟩ := built.bind
  obtain ⟨_, -, built⟩ := built.bind
  obtain ⟨_, -, built⟩ := built.bind
  obtain ⟨_, -, finished⟩ := built.bind
  obtain ⟨perName, second, flat⟩ := second.bind
  rw [Build.yields_lift] at quoted read finished
  rw [List.mapM_map] at first second
  obtain ⟨additions, adding, shown, plannedFirst, rfl⟩ := exists_read (fun _ _ => changes_of_add) first
  have grouped : (alter.alterations.mapM fun (given : Value × List Value) => (given.2.map (session.columnPart (session.buildWithin session.objects.length))).mapM
      fun (part : ColumnPart) => part.alter table (TableTarget.bareName name) given.1).Yields perName := second
  obtain ⟨alterations, altering, groups, plannedSecond, rfl⟩ := exists_read (fun _ _ => changes_of_group) grouped
  obtain ⟨drops, dropping, same, plannedThird, rfl⟩ := exists_read (fun _ _ => change_of_drop (TableTarget.bareName name)) third
  have unchanged : alter.drops = drops := by
    have each : List.Forall₂ (· = ·) alter.drops drops := same.imp fun _ _ equal => equal.symm
    rwa [List.forall₂_eq_eq_eq] at each
  obtain rfl := Build.yields_pure.mp flat
  obtain rfl := Build.yields_pure.mp listed
  refine ⟨⟨alter.target, additions, alterations, drops⟩, adding.flatten ++ (altering.map List.flatten).flatten ++ dropping, table, name, texts,
    label, ⟨rfl, shown, groups, unchanged.symm⟩, ?_, quoted, read, ?_, rfl⟩
  · exact Outcome.bind_eq_ok.mpr ⟨adding, plannedFirst, Outcome.bind_eq_ok.mpr ⟨altering, plannedSecond,
      Outcome.bind_eq_ok.mpr ⟨dropping, plannedThird, rfl⟩⟩⟩
  · have statements (write : Change → Text) : (adding.map (List.map write)).flatten ++
        ((altering.map (List.map (List.map write))).map List.flatten).flatten ++ dropping.map write =
          (adding.flatten ++ (altering.map List.flatten).flatten ++ dropping).map write := by
      simp [List.map_flatten, Function.comp_def]
    rw [statements, List.map_map] at finished
    exact finished

/-- Reading the statements that alter a table in order. The names are texts; the table has every current name and every dropped one, and none of the new names, which differ from each other, from the names that are added and from the current names; and what is dropped is not altered. Then all statements find the columns that they name exactly if every altered column has a current name, no definition but the last of its current name gives a new name, and no name is dropped twice. -/
theorem columns_found_iff (alter : AlterTable Value) (built : (session.build (.table (.alter alter))).Yields value) :
    ∃ resolved changes table name texts label, alter.Refers session resolved ∧ resolved.changes = .ok changes ∧
      alter.target.quoted = .ok table ∧ alter.target.name.asText = .ok name ∧
      alter.target.finishAll (changes.map fun change => change.text table (TableTarget.bareName name) ++ ";") = .ok texts ∧
      value = .list label (texts.map .text) ∧
      ∀ added altered dropped columns, resolved.HasNames added altered dropped → (∀ names ∈ altered, names.1 ∈ columns) →
        (∀ name ∈ dropped, name ∈ columns ∧ ∀ names ∈ altered, name ≠ names.1) →
        (∀ names ∈ altered, names.2 ≠ names.1 → names.2 ∉ columns ∧ names.2 ∉ added) →
        ((altered.filter fun names => names.2 ≠ names.1).map (·.2)).Nodup →
        (Change.FindColumns columns changes ↔
          (∀ names ∈ altered, names.1 ≠ []) ∧ Change.RenamedLast altered ∧ dropped.Nodup) := by
  obtain ⟨resolved, changes, table, name, texts, label, refers, planned, quoted, read, finished, listed⟩ := changes_of_build built
  refine ⟨resolved, changes, table, name, texts, label, refers, planned, quoted, read, finished, listed, ?_⟩
  intro added altered dropped columns names current there new distinct
  exact AlterTable.findColumns_iff names planned (refers.ne_nil_of_hasNames names) current there new distinct

private def namedColumns : Session :=
  ((({} : Session).put 0 (.column { name := .text "b", type := .text "INT" })).put 1 (.column { name := .text "c", type := .text "INT" })).put 2
    (.column { name := .text "a", type := .text "TEXT" })

private def columnAt (label : Label) : Value :=
  .object label ⟨"ColumnDefinition", "<ColumnDefinition>", true⟩

/-- A table with one column that gets a type and then a new name, and one column that goes. -/
private def renamedLast : AlterTable Value :=
  { target := { name := .text "t" }, additions := [columnAt 1], alterations := [(.text "a", [columnAt 2, columnAt 0])], drops := [.text "d"] }

/-- The type is given under the old name, before the new one. -/
theorem columns_found_renamed :
    (namedColumns.build (.table (.alter renamedLast))).Yields (.list 0
      ([Change.add "c" "INT", .nullability "c" true, .retype "a" "TEXT", .nullability "a" true, .rename "a" "b", .retype "b" "INT",
        .nullability "b" true, .drop "d"].map fun change => .text (change.text "\"t\"" "t" ++ ";"))) ∧
    Change.FindColumns [("a" : Text), ("d" : Text)]
      [.add "c" "INT", .nullability "c" true, .retype "a" "TEXT", .nullability "a" true, .rename "a" "b", .retype "b" "INT",
        .nullability "b" true, .drop "d"] := by
  have built : (namedColumns.build (.table (.alter renamedLast))).Yields (.list 0
      ([Change.add "c" "INT", .nullability "c" true, .retype "a" "TEXT", .nullability "a" true, .rename "a" "b", .retype "b" "INT",
        .nullability "b" true, .drop "d"].map fun change => .text (change.text "\"t\"" "t" ++ ";"))) := ⟨{}, _, rfl⟩
  refine ⟨built, ?_⟩
  obtain ⟨⟨target, additions, alterations, drops⟩, changes, _, _, _, _, ⟨_, adds, alters, dropped⟩, planned, _, _, _, _, found⟩ :=
    columns_found_iff renamedLast built
  have seen {label : Label} {column shown : Column} (shows : namedColumns.ShowsColumn (columnAt label) column)
      (put : namedColumns.object? label = some (.column shown)) : column = shown := by
    obtain ⟨⟨_, _, same, there⟩, -⟩ := shows
    cases same
    rw [put] at there
    cases there
    rfl
  obtain ⟨_, _, added, nothing, rfl⟩ := List.forall₂_cons_left_iff.mp adds
  obtain ⟨⟨_, group⟩, _, ⟨rfl, altered⟩, no, rfl⟩ := List.forall₂_cons_left_iff.mp alters
  obtain ⟨_, others, first, further, rfl : group = _⟩ := List.forall₂_cons_left_iff.mp altered
  obtain ⟨_, _, second, none, rfl⟩ := List.forall₂_cons_left_iff.mp further
  obtain rfl := List.forall₂_nil_left_iff.mp nothing
  obtain rfl := List.forall₂_nil_left_iff.mp no
  obtain rfl := List.forall₂_nil_left_iff.mp none
  obtain rfl := seen added rfl
  obtain rfl := seen first rfl
  obtain rfl := seen second rfl
  obtain rfl : drops = [.text "d"] := dropped
  obtain rfl := Except.ok.inj planned
  exact (found [("c" : Text)] [(("a" : Text), ("a" : Text)), (("a" : Text), ("b" : Text))] [("d" : Text)] [("a" : Text), ("d" : Text)]
    ⟨rfl, rfl, rfl⟩ (by decide) (by decide) (by decide) (by decide)).mpr ⟨by decide, by simp [Change.RenamedLast], by decide⟩

/-- A table whose one column gets two new names. -/
private def renamedTwice : AlterTable Value :=
  { target := { name := .text "t" }, additions := [], alterations := [(.text "a", [columnAt 0, columnAt 1])], drops := [] }

/-- Two new names under one current name: the second statement names a column that the first one has renamed. -/
theorem second_definition_not_found :
    (namedColumns.build (.table (.alter renamedTwice))).Yields (.list 0
      ([Change.rename "a" "b", .retype "b" "INT", .nullability "b" true, .rename "a" "c", .retype "c" "INT", .nullability "c" true].map
        fun change => .text (change.text "\"t\"" "t" ++ ";"))) ∧
    ¬ Change.FindColumns [("a" : Text)]
      [.rename "a" "b", .retype "b" "INT", .nullability "b" true, .rename "a" "c", .retype "c" "INT", .nullability "c" true] := by
  refine ⟨⟨{}, _, rfl⟩, fun found => ?_⟩
  exact absurd (found.2.2.2.1 "a" rfl) (by decide)

end Session

end SqlCompose
