import SqlCompose.Query.Part
import SqlCompose.Session.State

/-!
# Attributes

What can be read off a value or an object without a call. Lists and tuples of an object are made anew each time they are read; those of a record are the record's own.
-/

namespace SqlCompose.Session

abbrev Attributes := List (Text × Act Value)

def entryOf {α : Type} [Keyword α] (member : α) : Value :=
  .entry (Keyword.entry member)

/-! ### Attributes of objects -/

def settingAttributes (settings : Settings) : Attributes := [
  ("flavor", pure (entryOf settings.flavor)),
  ("compact_default", pure settings.compact),
  ("deep_compare_default", pure settings.deep)]

def ownAttributes : Statement Query → Attributes
  | .select s => [("table", pure s.table), ("columns", Act.newList (s.fields.map (·.value)))]
  | .compound s => [("alias", pure s.name)]
  | _ => []

def statementAttributes (statement : Statement Query) : Attributes :=
  let kind : Attributes := match statement.kind? with
    | some kind => [("kind", pure (entryOf kind))]
    | none => []
  ((statement.settings?.map settingAttributes).getD []) ++ kind ++ ownAttributes statement

def columnAttributes (column : Column) : Attributes := [
  ("name", pure column.name),
  ("column_type", pure column.type),
  ("nullable", pure (.bool column.nullable)),
  ("is_primary_key", pure (.bool column.isPrimaryKey)),
  ("is_unique", pure (.bool column.isUnique)),
  ("default_value", pure column.default),
  ("check_condition", pure column.condition),
  ("drops_default", pure (.bool column.dropsDefault)),
  ("foreign_key", match column.foreignKey with
    | none => pure .null
    | some key => do return key.toValue (← Act.build Build.freshLabel))]

def tableAttributes (statement : TableStatement Value) : Attributes :=
  let columns : Attributes := match statement with
    | .create create => [("columns", Act.newList create.columns)]
    | _ => []
  let common : Attributes := [("table_name", pure statement.target.name), ("kind", pure (entryOf statement.kind))]
  common ++ columns

def objectAttributes : Object → Attributes
  | .chain c => [("values", Act.newList c.values), ("is_empty", pure (.bool c.isEmpty))]
  | .query q => statementAttributes q.statement
  | .cte c => [("name", pure c.name), ("kind", pure (entryOf StatementKind.cte))]
  | .ctes cs => [("names", Act.newList (cs.map (·.name))), ("kind", pure (entryOf StatementKind.cte))]
  | .column c => columnAttributes c
  | .table t => tableAttributes t
  | .queryMaker defaults => [
      ("flavor", pure (entryOf defaults.flavor)),
      ("compact_params", pure defaults.compact),
      ("deep_compare", pure defaults.deep),
      ("table", Act.new (.tableMaker defaults.flavor))]
  | .tableMaker flavor => [("flavor", pure (entryOf flavor))]

/-! ### Attributes of values -/

/-- The quotes of a flavor that is given as an entry of the flavors. -/
def quoteAttributes (entry : ListEntry) : Attributes :=
  match (Keyword.ofEntry? entry : Option Flavor) with
  | some flavor => [("quote_chars", Act.newTuple [.text [flavor.quotes.1], .text [flavor.quotes.2]])]
  | none => []

def valueAttributes (value : Value) : Attributes :=
  match value with
  | .entry e =>
    let texts : Attributes := [("value", pure (.text e.word)), ("name", pure (.text e.member))]
    texts ++ quoteAttributes e
  | .record _ kind fields =>
    let vacancy : Attributes := match BuiltQuery.ofValue? value with
      | some query => [("is_empty", pure (.bool (!query.text.truthy)))]
      | none => []
    (kind.fieldNames.zip (fields.map pure)) ++ vacancy
  | _ => []

def attributesOf (value : Value) : Act Attributes := do
  match ← Act.object? value with
  | some (_, object) => return objectAttributes object
  | none => return valueAttributes value

end SqlCompose.Session
