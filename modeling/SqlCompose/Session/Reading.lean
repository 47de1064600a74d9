import SqlCompose.Chain.Edit
import SqlCompose.Query.Edit
import SqlCompose.Session.State
import SqlCompose.Signature
import SqlCompose.Statement.OrderEntry

/-!
# Reading arguments in a session

What the arguments of a call stand for: conditions, queries, columns and common table expressions may be objects of the session. A query is read as a copy, so a statement that takes it keeps what it was given; a column is kept as the reference that it is, so it stays the caller's column.
-/

namespace SqlCompose

namespace Arguments

def switch (arguments : Arguments) (name : Text) : Bool :=
  (arguments.get name).truthy

/-- A list of columns, to be quoted or written as they are. -/
def fields (arguments : Arguments) (raw : Bool) : Except Error (List Field) :=
  ((arguments.get "fields").asList).map fun values => values.map (⟨·, raw⟩)

def furtherFields (arguments : Arguments) (raw : Bool) : List Field :=
  arguments.rest.map (⟨·, raw⟩)

end Arguments

namespace Act

/-! ### Conditions -/

def objectCondition : Object → Condition
  | .chain c => .chain c
  | .query q => .query q
  | .cte _ | .ctes _ | .column _ | .table _ => .unbuildable
  | .queryMaker _ | .tableMaker _ => .unusable

def recordCondition (value : Value) : Condition :=
  match Predicate.ofValue? value, BuiltQuery.ofValue? value with
  | some predicate, _ => .predicate predicate
  | none, some query => .query (.of (.built query))
  | none, none =>
    match value with
    | .record _ .columnType _ | .record _ .foreignKey _ => .unbuildable
    | _ => .unusable

def condition (value : Value) : Act Condition := do
  match ← object? value with
  | some (_, object) => return objectCondition object
  | none => return ((Wording.ofValue? value).map Condition.text).getD (recordCondition value)

def predicate (value : Value) (values : List Value) : Act Predicate := do
  build ((← condition value).toPredicate values)

/-! ### Queries -/

def copy (query : Query) : Act Query := do
  let session ← get
  query.statement.checkCopy (session.checkCopy session.depth)
  return query.detached

/-- A query as it is now, for a statement to keep. What else can be copied is taken for a query that cannot be built. -/
def query (value : Value) : Act Query := do
  match ← object? value with
  | some (_, .query q) => copy q
  | some (_, .queryMaker _) | some (_, .tableMaker _) => throw .attributeMissing
  | some _ => return .of .unbuildable
  | none =>
    match BuiltQuery.ofValue? value with
    | some query => return .of (.built query)
    | none => throw .attributeMissing

def optionalQuery (value : Value) : Act (Option Query) := do
  match value with
  | .null => return none
  | value => return some (← query value)

/-! ### Columns -/

/-- Columns, each given alone or among the items of something. -/
def columns (values : List Value) : Act (List Value) := do
  let groups ← values.mapM fun value => do
    match ← object? value with
    | some (_, .column _) => return [value]
    | _ => liftM value.items
  return groups.flatten

/-! ### Common table expressions -/

/-- The failure of a text that is gone through: its characters are texts again, for ever. -/
def textEntries (text : Text) : List (Except Error (Cte Query)) :=
  if text.isEmpty then [] else [.error .endlessNesting]

mutual

/-- The expressions in a value, gone through at every depth from left to right, and a failure where something is neither an expression nor can be gone through. -/
def cteEntries (objectAt : Label → Option Object) : Value → List (Except Error (Cte Query))
  | .object label _ =>
    match objectAt label with
    | some (.cte c) => [.ok c]
    | _ => [.error .badArgument]
  | .text t => textEntries t
  | .entry e => textEntries e.word
  | .list _ items | .tuple _ items | .record _ .builtQuery items | .record _ .rendered items =>
    cteEntriesOfAll objectAt items
  | .dict _ entries => cteEntriesOfKeys objectAt entries
  | other =>
    match other.items? with
    | some [] => []
    | _ => [.error .badArgument]

def cteEntriesOfAll (objectAt : Label → Option Object) : List Value → List (Except Error (Cte Query))
  | [] => []
  | item :: items => cteEntries objectAt item ++ cteEntriesOfAll objectAt items

def cteEntriesOfKeys (objectAt : Label → Option Object) : List (Value × Value) → List (Except Error (Cte Query))
  | [] => []
  | (key, _) :: entries => cteEntries objectAt key ++ cteEntriesOfKeys objectAt entries

end

def ctesIn (values : List Value) : Act (List (Except Error (Cte Query))) := do
  let session ← get
  return values.flatMap (cteEntries session.object?)

def allOf (entries : List (Except Error (Cte Query))) : Except Error (List (Cte Query)) :=
  entries.mapM id

/-- What a statement is given as its expressions: nothing, a set, one, or several. -/
def attachedCtes (value : Value) : Act (Option (List (Cte Query))) := do
  match value with
  | .null => return none
  | value =>
    match ← object? value with
    | some (_, .ctes cs) => return some cs
    | _ => return some (← allOf (← ctesIn [value]))

/-! ### Joins -/

def joinCondition (condition : Value) (values : List Value) : Act (Option Predicate) := do
  match condition with
  | .null => return none
  | given => return some (← predicate given values)

/-- A join of a table. The condition is read before the kind of join. -/
def tableJoin (arguments : Arguments) : Act (Join Query) := do
  let predicate ← joinCondition (arguments.get "on") arguments.rest
  let kind ← JoinKind.ofValue (arguments.get "join_type")
  return ⟨kind, .table (arguments.get "table") (arguments.get "alias"), predicate⟩

/-- A join of a statement, which is read last. -/
def queryJoin (arguments : Arguments) : Act (Join Query) := do
  let predicate ← joinCondition (arguments.get "on") arguments.rest
  let kind ← JoinKind.ofValue (arguments.get "join_type")
  return ⟨kind, .subquery (← query (arguments.get "query")) (arguments.get "alias"), predicate⟩

end Act

end SqlCompose
