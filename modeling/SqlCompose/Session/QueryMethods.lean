import SqlCompose.Session.Building
import SqlCompose.Session.Method

/-!
# Methods of queries

The changes that kinds of statement share stand in one table, and each kind has those that it is given by name. A compound replaces its order and its groups where other statements add to them.
-/

namespace SqlCompose.Session

def withDirection : Signature :=
  .plain ["field"] [("direction", .text "ASC")]

def orderEntries (arguments : Arguments) : List (Act Statement.Edit) :=
  let direction := arguments.get "direction"
  let entry (value : Value) : Act Statement.Edit := do return .order (← OrderBy.ofEntry direction value)
  match arguments.get "field" with
  | .list _ items => items.map entry
  | value => [entry value]

def limitTo (value : Value) : Act Statement.Edit := do
  return .limit (← value.asCount "Limit")

def startAfter (value : Value) : Act Statement.Edit := do
  return .offset (← value.asCount "Offset")

def limitAndOffset (arguments : Arguments) : List (Act Statement.Edit) :=
  limitTo (arguments.get "limit") ::
    match arguments.get "offset" with
    | .null => []
    | offset => [startAfter offset]

def fieldList (raw : Bool) (edit : List Field → Statement.Edit) : Method (Changes Statement.Edit) :=
  ⟨.plain ["fields"] [], fun arguments => .one do return edit (← arguments.fields raw)⟩

def fieldSpread (raw : Bool) (edit : List Field → Statement.Edit) : Method (Changes Statement.Edit) :=
  ⟨.spread [], fun arguments => .given [edit (arguments.furtherFields raw)]⟩

def valueSpread (edit : List Value → Statement.Edit) : Method (Changes Statement.Edit) :=
  ⟨.spread [], fun arguments => .given [edit arguments.rest]⟩

def groupList (edit : List Value → Statement.Edit) : Method (Changes Statement.Edit) :=
  ⟨.plain ["fields"] [], fun arguments => .one do return edit (← (arguments.get "fields").asList)⟩

def switching (edit : Value → Statement.Edit) : Method (Changes Statement.Edit) :=
  ⟨.plain [] [("enabled", .bool true)], fun arguments => .given [edit (arguments.get "enabled")]⟩

def tableAndName : Signature :=
  .plain ["table"] [("alias", .null)]

def restricting (connective : Connective) : Method (Changes Statement.Edit) :=
  ⟨.spread ["condition"], fun arguments => .one do
    return .where connective (← Act.condition (arguments.get "condition")) arguments.rest⟩

/-- A member and its operator. The member is read before the operator. -/
def memberEdit (query operator : Value) : Act Statement.Edit := do
  let query ← Act.query query
  return .member ⟨query, ← SetOperator.ofValue operator⟩

def unionAll : Value :=
  .entry (Keyword.entry SetOperator.unionAll)

/-- A member given alone, with its operator, or as a dictionary with `query` and perhaps `type`. -/
def memberEntry (value : Value) : Act Statement.Edit :=
  match value.tuple?, value with
  | some [query], _ => memberEdit query unionAll
  | some [query, operator], _ => memberEdit query operator
  | some _, _ => throw .badArgument
  | none, .dict _ entries =>
    match Value.entry? (.text "query") entries with
    | none => throw .keyMissing
    | some query => memberEdit query ((Value.entry? (.text "type") entries).getD unionAll)
  | none, query => memberEdit query unionAll

def joinSignature (required : List Text) (named : List (Text × Value)) : Signature :=
  ⟨required, [("on", .null)], true, ("join_type", .text "INNER") :: named⟩

def columnAndValue (edit : Value → Value → Statement.Edit) : Method (Changes Statement.Edit) :=
  ⟨.plain ["column", "value"] [], fun arguments => .one do
    return edit (arguments.get "column") (← Act.build (arguments.get "value").check)⟩

def settingEdits : Methods (Changes Statement.Edit) := [
  ("sql_flavor", ⟨.plain ["flavor"] [], fun arguments => .one do
    return .flavor (← Flavor.ofValue (arguments.get "flavor"))⟩),
  ("schema", valueSpread .schemas),
  ("add_schema", valueSpread .moreSchemas),
  ("set_build_defaults", ⟨.plain [] [("compact", .bool false), ("deep_compare", .bool false)], fun arguments =>
    .given [.compaction (arguments.get "compact") (arguments.get "deep_compare")]⟩),
  ("with_", ⟨.plain ["ctes"] [], fun arguments => .one do
    return .ctes (← Act.attachedCtes (arguments.get "ctes"))⟩)]

def clauseEdits : Methods (Changes Statement.Edit) := [
  ("from_", ⟨tableAndName, fun arguments => .given [.table (arguments.get "table") (arguments.get "alias")]⟩),
  ("into", ⟨.plain ["table"] [], fun arguments => .given [.table (arguments.get "table") .null]⟩),
  ("as_", ⟨.plain ["alias"] [], fun arguments => .given [.name (arguments.get "alias")]⟩),
  ("where", restricting .and),
  ("or_where", restricting .or),
  ("reset_where", ⟨.none, fun _ => .given [.filter .none]⟩),
  ("having", ⟨.spread ["condition"], fun arguments => .one do
    return .having (← Act.condition (arguments.get "condition")) arguments.rest⟩),
  ("select", fieldList false .fields),
  ("raw_select", fieldList true .fields),
  ("add_select", fieldSpread false .moreFields),
  ("add_raw_select", fieldSpread true .moreFields),
  ("distinct", switching .distinct),
  ("join", ⟨joinSignature ["table"] [("alias", .null)], fun arguments => .one do
    return .join (← Act.tableJoin arguments)⟩),
  ("join_subquery", ⟨joinSignature ["query", "alias"] [], fun arguments => .one do
    return .join (← Act.queryJoin arguments)⟩),
  ("group_by", groupList .moreGroups),
  ("group_by_select_fields", switching .groupBySelected),
  ("order_by", ⟨withDirection, fun arguments => ⟨return orderEntries arguments⟩⟩),
  ("reset_order_by", ⟨.none, fun _ => .given [.noOrder]⟩),
  ("limit", ⟨.plain ["count"] [], fun arguments => .one (limitTo (arguments.get "count"))⟩),
  ("offset", ⟨.plain ["count"] [], fun arguments => .one (startAfter (arguments.get "count"))⟩),
  ("limit_and_offset", ⟨.plain ["limit"] [("offset", .null)], fun arguments => ⟨return limitAndOffset arguments⟩⟩),
  ("reset_limit_offset", ⟨.none, fun _ => .given [.noPaging]⟩),
  ("reset", ⟨.none, fun _ => .given [.reset]⟩)]

def writingEdits : Methods (Changes Statement.Edit) := [
  ("values", ⟨.plain ["values"] [], fun arguments => .one do
    return .rows (← Act.build (Value.takeOverPairs (arguments.get "values")))⟩),
  ("add_value", columnAndValue .row),
  ("columns", valueSpread .columns),
  ("from_select", ⟨.plain ["query"] [], fun arguments => .one do
    return .source (← Act.query (arguments.get "query"))⟩),
  ("set", ⟨.plain ["values"] [], fun arguments => .one do
    let pairs ← Act.build (Value.takeOverPairs (arguments.get "values"))
    return .assignments (pairs.map fun (column, value) => (column, .value value))⟩),
  ("add_set_value", columnAndValue fun column value => .assignment column (.value value)),
  ("add_set", ⟨.plain ["column", "expression"] [], fun arguments =>
    .given [.assignment (arguments.get "column") (.expression (arguments.get "expression"))]⟩),
  ("using", ⟨tableAndName, fun arguments => .given [.other (arguments.get "table") (arguments.get "alias")]⟩),
  ("returning", fieldList false .returning),
  ("add_returning", fieldSpread false .moreReturning),
  ("returning_raw", fieldList true .returning),
  ("add_returning_raw", fieldSpread true .moreReturning),
  ("returning_all", ⟨.none, fun _ => .given [.returning [⟨.text "*", false⟩]]⟩)]

def compoundEdits : Methods (Changes Statement.Edit) := [
  ("add", ⟨.plain ["query"] [("operator", unionAll)], fun arguments =>
    .one (memberEdit (arguments.get "query") (arguments.get "operator"))⟩),
  ("add_many", ⟨.plain ["members"] [], fun arguments => ⟨do
    return (← (arguments.get "members").items).map memberEntry⟩⟩),
  ("add_many_of_type", ⟨.plain ["queries"] [("operator", unionAll)], fun arguments => ⟨do
    return (← (arguments.get "queries").items).map (memberEdit · (arguments.get "operator"))⟩⟩),
  ("group_by", groupList .groups),
  ("add_group_by", groupList .moreGroups),
  ("order_by", ⟨withDirection, fun arguments => ⟨return pure .noOrder :: orderEntries arguments⟩⟩),
  ("add_order_by", ⟨withDirection, fun arguments => ⟨return orderEntries arguments⟩⟩)]

/-- The names of the shared changes that a statement of each kind has, besides those of its settings. -/
def sharedNames : Statement Query → List Text
  | .select _ =>
    ["from_", "where", "or_where", "reset_where", "having", "select", "raw_select", "add_select", "add_raw_select",
      "distinct", "join", "join_subquery", "group_by", "group_by_select_fields", "order_by", "reset_order_by", "limit",
      "offset", "limit_and_offset", "reset_limit_offset", "reset"]
  | .compound _ =>
    ["as_", "where", "or_where", "reset_where", "having", "select", "raw_select", "add_select", "add_raw_select", "limit",
      "offset", "limit_and_offset"]
  | .insert _ =>
    ["into", "values", "add_value", "columns", "from_select", "returning", "add_returning", "returning_raw",
      "add_returning_raw", "returning_all"]
  | .update _ =>
    ["from_", "where", "or_where", "reset_where", "join", "join_subquery", "set", "add_set_value", "add_set", "using",
      "returning", "add_returning", "returning_raw", "add_returning_raw", "returning_all"]
  | .delete _ =>
    ["from_", "where", "or_where", "reset_where", "using", "returning", "add_returning", "returning_raw",
      "add_returning_raw", "returning_all"]
  | .built _ | .unbuildable => []

def sharedEdits (statement : Statement Query) : Methods (Changes Statement.Edit) :=
  settingEdits ++ (clauseEdits ++ writingEdits).filter fun method => (sharedNames statement).contains method.1

theorem forall_mem_sharedEdits {good : Text × Method (Changes Statement.Edit) → Prop}
    (all : ∀ entry ∈ settingEdits ++ clauseEdits ++ writingEdits, good entry) (statement : Statement Query) :
    ∀ entry ∈ sharedEdits statement, good entry := by
  rw [List.append_assoc, List.forall_mem_append] at all
  exact List.forall_mem_append.mpr ⟨all.1, fun entry member => all.2 entry (List.mem_filter.mp member).1⟩

/-- Makes one change of a statement. If it puts a link into a chain that somebody else holds, it is their chain that has changed. -/
def editStatement (label : Label) (edit : Statement.Edit) : Act Unit := do
  match ← Act.object label with
  | .query (.of statement) =>
    let changed ← Act.build (edit.apply statement)
    Act.put label (.query (.of changed))
    match edit.linked? changed with
    | some (holder, chain) => Act.put holder (.chain chain)
    | none => pure ()
  | _ => throw .attributeMissing

/-! ### Results -/

/-- A query and another one, joined by an operator. The compound has the flavor and the compaction of the first. -/
def unite (query : Query) (operator : SetOperator) : Method (Act Outcome) :=
  ⟨.plain ["other"] [("alias", .null)], fun arguments => do
    let first ← Act.copy query
    let other ← Act.query (arguments.get "other")
    let settings : Settings := { (query.statement.settings?.getD {}) with schemas := [] }
    Act.newResult (.query (.of (.compound
      { settings, name := arguments.get "alias", members := [⟨first, .unionAll⟩, ⟨other, operator⟩] })))⟩

def queryResults (query : Query) : Methods (Act Outcome) := [
  ("build", ⟨.plain [] [("compact", .null), ("deep_compare", .null)], fun arguments =>
    Act.queryResult (query.build (arguments.get "compact").asSwitch (arguments.get "deep_compare").asSwitch)⟩),
  ("build_explain", ⟨.plain [] [("analyze", .bool false), ("compact", .null)], fun arguments => Act.queryResult do
    let opening : Text := if arguments.switch "analyze" then "EXPLAIN ANALYZE " else "EXPLAIN "
    (← query.build (arguments.get "compact").asSwitch none).prepend (.text opening)⟩),
  ("clone", ⟨.none, fun _ => do Act.newResult (.query (← Act.copy query))⟩)]

/-- What takes a callback takes nothing else. -/
def populating : Method (Act Outcome) :=
  ⟨.plain ["build"] [], fun _ => throw .badArgument⟩

def populatingResults (statement : Statement Query) : Methods (Act Outcome) :=
  let rows : Methods (Act Outcome) := if statement.filter?.isSome then [("use_statement", populating)] else []
  let groups : Methods (Act Outcome) := if statement.having?.isSome then [("use_having_statement", populating)] else []
  rows ++ groups

def selectResults (query : Query) : Methods (Act Outcome) := [
  ("union", unite query .union),
  ("union_all", unite query .unionAll)]

def compoundResults (compound : Compound Query) : Methods (Act Outcome) := [
  ("raw_union", ⟨.none, fun _ => Act.queryResult (compound.map Query.toChild).buildMembers⟩)]

def queryMethods (label : Label) (query : Query) : Methods (Act Outcome) :=
  let common := (sharedEdits query.statement).changing (editStatement label) ++ queryResults query ++
    populatingResults query.statement
  match query.statement with
  | .compound compound => compoundEdits.changing (editStatement label) ++ compoundResults compound ++ common
  | .select _ => selectResults query ++ common
  | _ => common

end SqlCompose.Session
