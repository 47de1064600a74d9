import SqlCompose.Keyword
import SqlCompose.Table.ColumnType
import SqlCompose.Value.Equality

/-!
# Columns

A column has a name, a type and constraints. In a table definition the constraints stand behind the type in a fixed order; a primary key needs no further `NOT NULL` or `UNIQUE`. In an existing table every constraint is a statement of its own.

What names a column, its type and its references is kept as the value that was given, and written as it is when the column is built. In a definition the name and the type are put together as texts, so they must be texts; in the other statements whatever they are is printed.
-/

namespace SqlCompose

/-! ### Foreign keys -/

structure ForeignKey where
  table : Value
  column : Value
  onDelete : Option ReferentialAction := none
  onUpdate : Option ReferentialAction := none
  deriving Repr

namespace ForeignKey

def build (key : ForeignKey) : Except Error Text := do
  let action (event : Text) (action : Option ReferentialAction) : Text :=
    match action with
    | none => []
    | some action => " ON " ++ event ++ " " ++ Keyword.word action
  return "REFERENCES " ++ (← key.table.printed) ++ "(" ++ (← key.column.printed) ++ ")" ++
    action "DELETE" key.onDelete ++ action "UPDATE" key.onUpdate

def actionValue : Option ReferentialAction → Value
  | none => .null
  | some action => .entry (Keyword.entry action)

def toValue (label : Label) (key : ForeignKey) : Value :=
  .record label .foreignKey [key.table, key.column, actionValue key.onDelete, actionValue key.onUpdate]

def ofValue? : Value → Option ForeignKey
  | .record _ .foreignKey [table, column, onDelete, onUpdate] =>
    match ReferentialAction.ofValue onDelete, ReferentialAction.ofValue onUpdate with
    | .ok onDelete, .ok onUpdate => some ⟨table, column, onDelete, onUpdate⟩
    | _, _ => none
  | _ => none

end ForeignKey

structure Column where
  name : Value := .null
  type : Value := .null
  nullable : Bool := true
  isPrimaryKey : Bool := false
  isUnique : Bool := false
  default : Value := .null
  condition : Value := .null
  foreignKey : Option ForeignKey := none
  dropsDefault : Bool := false
  deriving Repr

namespace Column

def logger : Text := "querykit.ddl"

/-- Goes on only with a column that has a name and a type. -/
def requireNamed (column : Column) : Build Unit := do
  match column.name.truthy, column.type.truthy with
  | true, true => return ()
  | false, false => Build.failFor logger .columnNameAndType
  | false, true => Build.failFor logger .columnName
  | true, false => Build.failFor logger (.columnType (← column.name.printed))

/-- A part that may be missing, printed between two texts. -/
private def around (opening closing : Text) : Value → Except Error (List Text)
  | .null => .ok []
  | value => value.printed.map fun text => [opening ++ text ++ closing]

private def keyText (opening : Text) (key : Option ForeignKey) : Except Error (List Text) :=
  match key with
  | none => .ok []
  | some key => key.build.map fun text => [opening ++ text]

def constraints (column : Column) : Except Error (List Text) := do
  let key : List Text := if column.isPrimaryKey then ["PRIMARY KEY"] else []
  let notNull : List Text := if column.nullable || column.isPrimaryKey then [] else ["NOT NULL"]
  let unique : List Text := if column.isUnique && !column.isPrimaryKey then ["UNIQUE"] else []
  let default ← around "DEFAULT " [] column.default
  let check ← around "CHECK (" ")" column.condition
  return key ++ notNull ++ unique ++ default ++ check ++ (← keyText [] column.foreignKey)

/-- The column as it stands in a table definition, or only its name and type. All parts are written before they are put together. -/
def build (column : Column) (bare : Bool) : Build Text := do
  column.requireNamed
  let type ← renderType column.type
  let constraints ← if bare then pure [] else column.constraints
  return Text.join " " ((← column.name.asText) :: (← type.asText) :: constraints)

/-! ### Statements on an existing table -/

def alterTable (table : Text) : Text :=
  "ALTER TABLE " ++ table

def nullability (column : Column) (table name : Text) : Text :=
  alterTable table ++ " ALTER COLUMN " ++ name ++ if column.nullable then (" DROP NOT NULL" : Text) else " SET NOT NULL"

def setDefault (column : Column) (table name : Text) : Except Error (List Text) :=
  around (alterTable table ++ " ALTER COLUMN " ++ name ++ " SET DEFAULT ") [] column.default

/-- One statement for each constraint; the name of a constraint is made from the table, the column and its kind. -/
def constraintStatements (column : Column) (table tableName name : Text) : Except Error (List Text) := do
  let add (kind : Text) : Text := alterTable table ++ " ADD CONSTRAINT " ++ tableName ++ "_" ++ name ++ "_" ++ kind
  let check ← around (add "check" ++ " CHECK (") ")" column.condition
  let key : List Text := if column.isPrimaryKey then [add "pkey" ++ " PRIMARY KEY (" ++ name ++ ")"] else []
  let unique : List Text := if column.isUnique then [add "unique" ++ " UNIQUE (" ++ name ++ ")"] else []
  return check ++ key ++ unique ++ (← keyText (add "fkey" ++ " FOREIGN KEY (" ++ name ++ ") ") column.foreignKey)

def buildToAdd (column : Column) (table tableName : Value) : Build (List Text) := do
  column.requireNamed
  let table ← table.printed
  let bare ← column.build true
  let name ← column.name.printed
  let default ← column.setDefault table name
  return [alterTable table ++ " ADD COLUMN " ++ bare, column.nullability table name] ++ default ++
    (← column.constraintStatements table (← tableName.printed) name)

/-- The statement that gives a column its new name, if it had another one. -/
def rename (column : Column) (table name : Text) (previous : Value) : Except Error (List Text) := do
  if previous.truthy then
    match previous.equal column.name with
    | none => throw .incomparable
    | some true => return []
    | some false => return [alterTable table ++ " RENAME COLUMN " ++ (← previous.printed) ++ " TO " ++ name]
  else return []

/-- What becomes of the default of a column that is altered. -/
def alterDefault (column : Column) (table name : Text) : Except Error (List Text) :=
  match column.default with
  | .null => .ok (if column.dropsDefault then [alterTable table ++ " ALTER COLUMN " ++ name ++ " DROP DEFAULT"] else [])
  | _ => column.setDefault table name

def buildToAlter (column : Column) (table tableName previous : Value) : Build (List Text) := do
  column.requireNamed
  let table ← table.printed
  let name ← column.name.printed
  let renamed ← column.rename table name previous
  let type ← (← renderType column.type).printed
  let default ← column.alterDefault table name
  return renamed ++
    [alterTable table ++ " ALTER COLUMN " ++ name ++ " TYPE " ++ type, column.nullability table name] ++ default ++
    (← column.constraintStatements table (← tableName.printed) name)

def shown (column : Column) : Except Error Text := do
  return "ColumnDefinition(" ++ (← column.name.shown) ++ ", " ++ (← column.type.shown) ++ ")"

def mapValues (f : Value → Value) (column : Column) : Column :=
  { column with
    name := f column.name
    type := f column.type
    default := f column.default
    condition := f column.condition
    foreignKey := column.foreignKey.map fun key => { key with table := f key.table, column := f key.column } }

/-! ### Changes -/

inductive Edit where
  | name (name : Value)
  | type (type : Value)
  | nullable (allowed : Bool)
  | primaryKey
  | unique
  | default (value : Value)
  | dropDefault
  | condition (given : Value)
  | foreignKey (key : ForeignKey)
  deriving Repr

/-- A column changed in one respect. A primary key is never null. -/
def Edit.apply (column : Column) : Edit → Column
  | .name given => { column with name := given }
  | .type given => { column with type := given }
  | .nullable allowed => { column with nullable := allowed }
  | .primaryKey => { column with isPrimaryKey := true, nullable := false }
  | .unique => { column with isUnique := true }
  | .default value => { column with default := value }
  | .dropDefault => { column with dropsDefault := true }
  | .condition given => { column with condition := given }
  | .foreignKey key => { column with foreignKey := some key }

end Column

end SqlCompose
