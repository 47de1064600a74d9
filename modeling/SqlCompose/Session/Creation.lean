import SqlCompose.Session.CteMethods
import SqlCompose.Session.Method

/-!
# Creating objects and records

Objects and records are created by the name of what they are, or by a maker that knows the flavor and the compaction of new statements.
-/

namespace SqlCompose.Session

def makerLogger : Text := "querykit.factory"

def tableAndAlias : Signature :=
  .plain [] [("table", .null), ("alias", .null)]

def onlyTable : Signature :=
  .plain [] [("table", .null)]

def onlyName : Signature :=
  .plain [] [("name", .null)]

def settingsOf (defaults : Defaults) : Settings :=
  { flavor := defaults.flavor, compact := defaults.compact, deep := defaults.deep }

def newStatement (statement : Statement Query) : Act Outcome :=
  Act.newResult (.query (.of statement))

/-! ### Conditions and finished queries -/

def newPredicate (arguments : Arguments) : Act Outcome := do
  let values ← (arguments.get "values").items
  Act.predicateResult do
    match Wording.ofValue? (arguments.get "text") with
    | some text => Predicate.make text values
    | none =>
      let _ ← Value.checkAll values
      throw .badArgument

/-- A condition as a predicate. One that is a predicate already is kept. -/
def predicateOf (arguments : Arguments) : Act Outcome := do
  let condition := arguments.get "condition"
  match Predicate.ofValue? condition, arguments.rest with
  | some _, [] => return .value condition
  | _, values => do
    let predicate ← Act.predicate condition values
    Act.predicateResult (pure predicate)

def newBuiltQuery (arguments : Arguments) : Act Outcome := do
  let values ← (arguments.get "values").items
  Act.queryResult (BuiltQuery.ofParts (arguments.get "text") values)

def newOrder (arguments : Arguments) : Act Outcome :=
  Act.builtResult do (← OrderBy.make (arguments.get "field") (arguments.get "direction")).toValue

/-! ### Statements -/

/-- Statements with settings; without a maker these are the settings of every new statement. -/
def newSelect (settings : Settings) : Method (Act Outcome) :=
  ⟨tableAndAlias, fun arguments => newStatement (.select
    { settings, table := arguments.get "table", name := arguments.get "alias" })⟩

def newCompound (settings : Settings) : Method (Act Outcome) :=
  ⟨.plain [] [("alias", .null)], fun arguments => newStatement (.compound { settings, name := arguments.get "alias" })⟩

def newInsert (settings : Settings) : Method (Act Outcome) :=
  ⟨onlyTable, fun arguments => newStatement (.insert { settings, table := arguments.get "table" })⟩

def newUpdate (settings : Settings) : Method (Act Outcome) :=
  ⟨tableAndAlias, fun arguments => newStatement (.update
    { settings, table := arguments.get "table", name := arguments.get "alias" })⟩

def newDelete (settings : Settings) : Method (Act Outcome) :=
  ⟨tableAndAlias, fun arguments => newStatement (.delete
    { settings, table := arguments.get "table", name := arguments.get "alias" })⟩

def newCte : Method (Act Outcome) :=
  ⟨.plain [] [("name", .null), ("query", .null), ("recursive", .bool false)], fun arguments => do
    Act.newResult (.cte (← makeCte arguments))⟩

def newCtes : Method (Act Outcome) :=
  ⟨.spread [], fun arguments => do Act.newResult (.ctes (← Act.allOf (← Act.ctesIn arguments.rest)))⟩

def newChain : Method (Act Outcome) :=
  ⟨.none, fun _ => Act.newResult (.chain {})⟩

/-! ### Tables -/

def typeResult (type : Except Error ColumnType) : Act Outcome :=
  Act.builtResult do (← type).toValue

def newType (arguments : Arguments) : Act Outcome := do
  let values ← (arguments.get "arguments").items
  typeResult (ColumnType.make (arguments.get "name") values)

def sizedType (name : Text) : Method (Act Outcome) :=
  ⟨.plain ["length"] [], fun arguments => typeResult (ColumnType.make (.text name) [arguments.get "length"])⟩

def scaledType (name : Text) : Method (Act Outcome) :=
  ⟨.plain ["precision"] [("scale", .null)], fun arguments =>
    typeResult (ColumnType.withScale (.text name) (arguments.get "precision") (arguments.get "scale"))⟩

def newColumn (arguments : Arguments) : Act Outcome :=
  Act.newResult (.column { name := arguments.get "name", type := arguments.get "column_type" })

def newTable (statement : TableStatement Value) : Act Outcome :=
  Act.newResult (.table statement)

def newCreate (flavor : Flavor) (name : Value) (columns : List Value) : Act Outcome :=
  newTable (.create { target := { name, flavor }, columns })

def newAlter (flavor : Flavor) (name : Value) : Act Outcome :=
  newTable (.alter { target := { name, flavor } })

def newDrop (flavor : Flavor) (name : Value) : Act Outcome :=
  newTable (.drop { target := { name, flavor } })

def columnSignature : Signature :=
  .plain [] [("name", .null), ("column_type", .null)]

/-! ### Makers -/

def givenFlavor (value : Value) : Act Flavor := do
  match value with
  | .null => return (← get).defaults.flavor
  | given => Flavor.ofValue given

def newQueryMaker (arguments : Arguments) : Act Outcome := do
  let standard := (← get).defaults
  let flavor ← givenFlavor (arguments.get "flavor")
  let compact := Value.orElse standard.compact (arguments.get "compact_params")
  let deep := Value.orElse standard.deep (arguments.get "deep_compare")
  Act.build do
    Build.log makerLogger .debug
      ("Query factory ready (flavor=" ++ Keyword.word flavor ++ ", compact=" ++ (← compact.printed) ++ ")")
  Act.newResult (.queryMaker ⟨flavor, compact, deep⟩)

def queryMakerMethods (defaults : Defaults) : Methods (Act Outcome) :=
  let settings := settingsOf defaults
  [("select", newSelect settings),
    ("insert", newInsert settings),
    ("update", newUpdate settings),
    ("delete", newDelete settings),
    ("union", newCompound settings),
    ("cte", newCte),
    ("ctes", newCtes),
    ("statement", newChain)]

def tableMakerMethods (flavor : Flavor) : Methods (Act Outcome) := [
  ("create", ⟨⟨[], [("name", .null)], true, []⟩, fun arguments =>
    newCreate flavor (arguments.get "name") arguments.rest⟩),
  ("alter", ⟨onlyName, fun arguments => newAlter flavor (arguments.get "name")⟩),
  ("drop", ⟨onlyName, fun arguments => newDrop flavor (arguments.get "name")⟩),
  ("column", ⟨columnSignature, newColumn⟩)]

/-! ### Creation by name -/

def creators : Methods (Act Outcome) := [
  ("Predicate", ⟨.plain ["text"] [("values", .tuple 0 [])], newPredicate⟩),
  ("Predicate.of", ⟨.spread ["condition"], predicateOf⟩),
  ("Statement", newChain),
  ("BuiltQuery", ⟨.plain ["text"] [("values", .tuple 0 [])], newBuiltQuery⟩),
  ("SelectQuery", newSelect {}),
  ("UnionQuery", newCompound {}),
  ("InsertQuery", newInsert {}),
  ("UpdateQuery", newUpdate {}),
  ("DeleteQuery", newDelete {}),
  ("Cte", newCte),
  ("CteMaker", newCtes),
  ("OrderBy", ⟨.plain ["field"] [("direction", .text "ASC")], newOrder⟩),
  ("ColumnType", ⟨.plain ["name"] [("arguments", .tuple 0 [])], newType⟩),
  ("varchar", sizedType "VARCHAR"),
  ("char", sizedType "CHAR"),
  ("bit", sizedType "BIT"),
  ("varbit", sizedType "VARBIT"),
  ("numeric", scaledType "NUMERIC"),
  ("decimal", scaledType "DECIMAL"),
  ("ColumnDefinition", ⟨columnSignature, newColumn⟩),
  ("column", ⟨.plain ["name", "column_type"] [], newColumn⟩),
  ("CreateTableQuery", ⟨.plain [] [("table", .null), ("columns", .tuple 0 [])], fun arguments => do
    newCreate .postgres (arguments.get "table") (← (arguments.get "columns").items)⟩),
  ("AlterTableQuery", ⟨onlyTable, fun arguments => newAlter .postgres (arguments.get "table")⟩),
  ("DropTableQuery", ⟨onlyTable, fun arguments => newDrop .postgres (arguments.get "table")⟩),
  ("Query", ⟨.plain [] [("compact_params", .null), ("flavor", .null), ("deep_compare", .null)], newQueryMaker⟩),
  ("Table", ⟨.plain [] [("flavor", .null)], fun arguments => do
    Act.newResult (.tableMaker (← givenFlavor (arguments.get "flavor")))⟩)]

end SqlCompose.Session
