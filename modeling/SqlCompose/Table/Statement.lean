import SqlCompose.Identifier
import SqlCompose.Table.Column

/-!
# Statements on tables

Creating, altering and dropping a table. These statements bind no values; they have a flavor for the name of the table, and schemas.

A statement is over a type of columns. While it is put together these may be anything that stands for a column; to be built they must be parts, which say what a column contributes.
-/

namespace SqlCompose

structure TableTarget where
  name : Value := .null
  flavor : Flavor := .postgres
  schemas : List Value := []
  deriving Repr

namespace TableTarget

/-- The name of the table without schema, blanks and quotes, as it goes into the names of constraints. -/
def bareName (name : Text) : Text :=
  let isQuote (c : Char) : Bool := c = '"' || c = '\x60' || c = '[' || c = ']'
  let last := Text.trim ((Text.split '.' name).getLastD [])
  ((last.dropWhile isQuote).reverse.dropWhile isQuote).reverse

def quoted (target : TableTarget) : Except Error Text :=
  Identifier.quoteTableValue target.flavor target.name

def finish (target : TableTarget) (text : Text) : Except Error Text :=
  Identifier.substituteSchemas target.schemas text

def finishAll (target : TableTarget) (texts : List Text) : Except Error (List Text) :=
  texts.mapM target.finish

def mapValues (f : Value → Value) (target : TableTarget) : TableTarget :=
  { target with name := f target.name, schemas := target.schemas.map f }

end TableTarget

/-- What a column contributes to the statements it is in: its definition, and the statements that add it to a table or make a column of a table into it. -/
structure ColumnPart where
  define : Build Text
  add : (table tableName : Text) → Build (List Text)
  alter : (table tableName : Text) → (previous : Value) → Build (List Text)

def Column.toPart (column : Column) : ColumnPart where
  define := column.build false
  add table tableName := column.buildToAdd (.text table) (.text tableName)
  alter table tableName previous := column.buildToAlter (.text table) (.text tableName) previous

structure CreateTable (C : Type) where
  target : TableTarget := {}
  unlessExists : Value := .bool false
  columns : List C := []
  deriving Repr

structure AlterTable (C : Type) where
  target : TableTarget := {}
  additions : List C := []
  alterations : List (Value × List C) := []
  drops : List Value := []
  deriving Repr

structure DropTable where
  target : TableTarget := {}
  ifExists : Value := .bool false
  deriving Repr

/-! ### Building -/

def CreateTable.build (create : CreateTable ColumnPart) : Build Text := do
  Build.require create.target.name.truthy Column.logger .createTable
  Build.require (!create.columns.isEmpty) Column.logger .createColumns
  let columns ← create.columns.mapM (·.define)
  let table ← create.target.quoted
  let keyword : Text := if create.unlessExists.truthy then "CREATE TABLE IF NOT EXISTS " else "CREATE TABLE "
  let text ← create.target.finish
    (keyword ++ table ++ " (\n" ++ Text.join ",\n" (columns.map ("  " ++ ·)) ++ "\n);")
  Build.log Column.logger .debug
    ("Built CREATE TABLE for " ++ (← create.target.name.printed) ++ " with " ++
      Text.ofNat create.columns.length ++ " column(s)")
  return text

namespace AlterTable

/-- The statements for the columns that are altered, with the names that the columns have so far. -/
def alterationStatements (alter : AlterTable ColumnPart) (table tableName : Text) : Build (List Text) := do
  let perName ← alter.alterations.mapM fun (previous, columns) =>
    columns.mapM fun column => column.alter table tableName previous
  return (perName.map List.flatten).flatten

def build (alter : AlterTable ColumnPart) : Build (List Text) := do
  Build.require alter.target.name.truthy Column.logger .alterTable
  let table ← alter.target.quoted
  let tableName := TableTarget.bareName (← alter.target.name.asText)
  let added ← alter.additions.mapM (·.add table tableName)
  let altered ← alter.alterationStatements table tableName
  let dropped ← alter.drops.mapM fun name => do
    return Column.alterTable table ++ " DROP COLUMN " ++ (← name.printed)
  let statements := added.flatten ++ altered ++ dropped
  Build.require (!statements.isEmpty) Column.logger .alterations
  Build.log Column.logger .debug
    ("Built " ++ Text.ofNat statements.length ++ " ALTER TABLE statement(s) for " ++ (← alter.target.name.printed))
  alter.target.finishAll (statements.map (· ++ ";"))

end AlterTable

def DropTable.build (drop : DropTable) : Build Text := do
  Build.require drop.target.name.truthy Column.logger .dropTable
  let table ← drop.target.quoted
  let keyword : Text := if drop.ifExists.truthy then "DROP TABLE IF EXISTS " else "DROP TABLE "
  drop.target.finish (keyword ++ table ++ ";")

/-! ### One type for all three -/

inductive TableStatement (C : Type) where
  | create (create : CreateTable C)
  | alter (alter : AlterTable C)
  | drop (drop : DropTable)
  deriving Repr

namespace TableStatement

variable {C D : Type}

def kind : TableStatement C → StatementKind
  | create _ => .createTable
  | alter _ => .alterTable
  | drop _ => .dropTable

def target : TableStatement C → TableTarget
  | create s => s.target
  | alter s => s.target
  | drop s => s.target

/-- Changes every column of a statement, in the order in which they are built. -/
def mapColumnsM {m : Type → Type} [Monad m] (f : C → m D) : TableStatement C → m (TableStatement D)
  | create s => do return create ⟨s.target, s.unlessExists, ← s.columns.mapM f⟩
  | alter s => do
    let additions ← s.additions.mapM f
    let alterations ← s.alterations.mapM fun (name, columns) => do return (name, ← columns.mapM f)
    return alter ⟨s.target, additions, alterations, s.drops⟩
  | drop s => return drop s

def mapColumns (f : C → D) (statement : TableStatement C) : TableStatement D :=
  Id.run (statement.mapColumnsM fun column => pure (f column))

def build : TableStatement ColumnPart → Build Value
  | create s => do return .text (← s.build)
  | alter s => do
    let texts ← s.build
    return .list (← Build.freshLabel) (texts.map .text)
  | drop s => do return .text (← s.build)

/-! ### Changes -/

inductive Edit (C : Type) where
  | table (name : Value)
  | flavor (flavor : Flavor)
  | schemas (schemas : List Value)
  | moreSchemas (schemas : List Value)
  | guarded (enabled : Value)
  | columns (columns : List C)
  | moreColumns (columns : List C)
  | additions (columns : List C)
  | moreAdditions (columns : List C)
  | alterations (alterations : List (Value × List C))
  | moreAlterations (name : Value) (columns : List C)
  | drops (names : List Value)
  | moreDrops (names : List Value)
  deriving Repr

def changeTarget (change : TableTarget → TableTarget) : TableStatement C → TableStatement C
  | create s => create { s with target := change s.target }
  | alter s => alter { s with target := change s.target }
  | drop s => drop { s with target := change s.target }

def changeCreate (change : CreateTable C → CreateTable C) : TableStatement C → Build (TableStatement C)
  | create s => return create (change s)
  | _ => throw .attributeMissing

def changeAlter (change : AlterTable C → AlterTable C) : TableStatement C → Build (TableStatement C)
  | alter s => return alter (change s)
  | _ => throw .attributeMissing

/-- The condition that the table does not exist yet, or that it does. -/
def guard (enabled : Value) : TableStatement C → Build (TableStatement C)
  | create s => return create { s with unlessExists := enabled }
  | drop s => return drop { s with ifExists := enabled }
  | alter _ => throw .attributeMissing

/-- Adds columns under a name; a name that is there already keeps its place. -/
def addAlterations (name : Value) (columns : List C) : List (Value × List C) → List (Value × List C)
  | [] => [(name, columns)]
  | (name', columns') :: rest =>
    if name'.same name then (name', columns' ++ columns) :: rest
    else (name', columns') :: addAlterations name columns rest

def Edit.apply (statement : TableStatement C) : Edit C → Build (TableStatement C)
  | .table name => return statement.changeTarget ({ · with name })
  | .flavor f => return statement.changeTarget ({ · with flavor := f })
  | .schemas names => return statement.changeTarget ({ · with schemas := names })
  | .moreSchemas names => return statement.changeTarget fun t => { t with schemas := t.schemas ++ names }
  | .guarded enabled => statement.guard enabled
  | .columns list => statement.changeCreate ({ · with columns := list })
  | .moreColumns more => statement.changeCreate fun c => { c with columns := c.columns ++ more }
  | .additions list => statement.changeAlter ({ · with additions := list })
  | .moreAdditions more => statement.changeAlter fun a => { a with additions := a.additions ++ more }
  | .alterations list => statement.changeAlter ({ · with alterations := list })
  | .moreAlterations name more =>
    if name.hashable then
      statement.changeAlter fun a => { a with alterations := addAlterations name more a.alterations }
    else throw .badArgument
  | .drops names => statement.changeAlter ({ · with drops := names })
  | .moreDrops names => statement.changeAlter fun a => { a with drops := a.drops ++ names }

/-! ### Values -/

def mapValues (f : Value → Value) : TableStatement Value → TableStatement Value
  | create s => create ⟨s.target.mapValues f, f s.unlessExists, s.columns.map f⟩
  | alter s => alter ⟨s.target.mapValues f, s.additions.map f,
      s.alterations.map fun (name, columns) => (f name, columns.map f), s.drops.map f⟩
  | drop s => drop ⟨s.target.mapValues f, f s.ifExists⟩

end TableStatement

end SqlCompose
