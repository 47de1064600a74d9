import SqlCompose.Session.Building
import SqlCompose.Session.Method

/-!
# Methods of columns and of statements on tables
-/

namespace SqlCompose.Session

/-! ### Columns -/

def columnEdit (parameter : Text) (edit : Value → Except Error Column.Edit) : Method (Changes Column.Edit) :=
  ⟨.plain [parameter] [], fun arguments => .one (liftM (edit (arguments.get parameter)))⟩

def columnEdits : Methods (Changes Column.Edit) := [
  ("set_name", columnEdit "name" fun name => return .name name),
  ("set_type", columnEdit "column_type" fun type => return .type type),
  ("null", ⟨.none, fun _ => .given [.nullable true]⟩),
  ("not_null", ⟨.none, fun _ => .given [.nullable false]⟩),
  ("primary_key", ⟨.none, fun _ => .given [.primaryKey]⟩),
  ("unique", ⟨.none, fun _ => .given [.unique]⟩),
  ("default", columnEdit "value" fun value => value.worded.map .default),
  ("drop_default", ⟨.none, fun _ => .given [.dropDefault]⟩),
  ("check", columnEdit "condition" fun condition => return .condition condition),
  ("references", ⟨.plain ["table", "column"] [("on_delete", .null), ("on_update", .null)], fun arguments => .one do
    let onDelete ← ReferentialAction.ofValue (arguments.get "on_delete")
    let onUpdate ← ReferentialAction.ofValue (arguments.get "on_update")
    return .foreignKey ⟨arguments.get "table", arguments.get "column", onDelete, onUpdate⟩⟩)]

def editColumn (label : Label) (edit : Column.Edit) : Act Unit := do
  match ← Act.object label with
  | .column c => Act.put label (.column (edit.apply c))
  | _ => throw .attributeMissing

def textList (action : Build (List Text)) : Act Outcome :=
  Act.builtResult do return .list (← Build.freshLabel) ((← action).map .text)

def columnResults (column : Column) : Methods (Act Outcome) := [
  ("build", ⟨.plain [] [("for_adding", .bool false)], fun arguments =>
    Act.builtResult do return .text (← column.build (arguments.switch "for_adding"))⟩),
  ("build_to_add", ⟨.plain ["table_sql", "table_name"] [], fun arguments =>
    textList (column.buildToAdd (arguments.get "table_sql") (arguments.get "table_name"))⟩),
  ("build_to_alter", ⟨.plain ["table_sql", "table_name"] [("previous_name", .null)], fun arguments =>
    textList (column.buildToAlter (arguments.get "table_sql") (arguments.get "table_name")
      (arguments.get "previous_name"))⟩),
  ("clone", ⟨.none, fun _ => Act.newResult (.column column)⟩)]

def columnMethods (label : Label) (column : Column) : Methods (Act Outcome) :=
  columnEdits.changing (editColumn label) ++ columnResults column

/-! ### Statements on tables -/

def nameSpread (edit : List Value → TableStatement.Edit Value) : Method (Changes (TableStatement.Edit Value)) :=
  ⟨.spread [], fun arguments => .given [edit arguments.rest]⟩

def columnSpread (edit : List Value → TableStatement.Edit Value) :
    Method (Changes (TableStatement.Edit Value)) :=
  ⟨.spread [], fun arguments => .one do return edit (← Act.columns arguments.rest)⟩

def guarding : Method (Changes (TableStatement.Edit Value)) :=
  ⟨.plain [] [("enabled", .bool true)], fun arguments => .given [.guarded (arguments.get "enabled")]⟩

def alterationEntries : Value → Except Error (List (Value × List Value))
  | .dict _ entries => entries.mapM fun (name, value) => return (name, ← value.items)
  | _ => .error .attributeMissing

def tableEdits : Methods (Changes (TableStatement.Edit Value)) := [
  ("table", ⟨.plain ["name"] [], fun arguments => .given [.table (arguments.get "name")]⟩),
  ("sql_flavor", ⟨.plain ["flavor"] [], fun arguments => .one do
    return .flavor (← Flavor.ofValue (arguments.get "flavor"))⟩),
  ("schema", nameSpread .schemas),
  ("add_schema", nameSpread .moreSchemas),
  ("if_not_exists", guarding),
  ("if_exists", guarding),
  ("add_columns", columnSpread .moreColumns),
  ("set_columns", columnSpread .columns),
  ("add_columns_to_add", columnSpread .moreAdditions),
  ("set_columns_to_add", columnSpread .additions),
  ("add_columns_to_alter", ⟨.spread ["name"], fun arguments =>
    .given [.moreAlterations (arguments.get "name") arguments.rest]⟩),
  ("set_columns_to_alter", ⟨.plain ["alterations"] [], fun arguments => .one do
    return .alterations (← alterationEntries (arguments.get "alterations"))⟩),
  ("drop_columns", nameSpread .moreDrops),
  ("set_columns_to_drop", nameSpread .drops)]

def editTable (label : Label) (edit : TableStatement.Edit Value) : Act Unit := do
  match ← Act.object label with
  | .table statement => Act.put label (.table (← Act.build (edit.apply statement)))
  | _ => throw .attributeMissing

/-- A copy of an object, with copies of the columns in it down to some depth. -/
def cloneWithin : Nat → Value → Act Value
  | 0, _ => throw .endlessNesting
  | depth + 1, value => do
    match ← Act.object? value with
    | some (_, .query q) => do Act.new (.query (← Act.copy q))
    | some (_, .table t) => do Act.new (.table (← t.mapColumnsM (cloneWithin depth)))
    | some (_, .queryMaker _) | some (_, .tableMaker _) | none => throw .attributeMissing
    | some (_, object) => Act.new object

def tableResults (statement : TableStatement Value) : Methods (Act Outcome) := [
  ("build", ⟨.none, fun _ => do
    let session ← get
    Act.builtResult (session.build (.table statement))⟩),
  ("clone", ⟨.none, fun _ => do
    let depth := (← get).depth
    Act.newResult (.table (← statement.mapColumnsM (cloneWithin depth)))⟩)]

def tableMethods (label : Label) (statement : TableStatement Value) : Methods (Act Outcome) :=
  tableEdits.changing (editTable label) ++ tableResults statement

end SqlCompose.Session
