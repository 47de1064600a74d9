import SqlCompose.Chain.Edit
import SqlCompose.Query.Part

/-!
# Changing a statement

A statement is configured by changes, each of one part. A change either gives the statement with this part changed or fails and leaves it as it was. A configuration call is a list of changes, made one after another until one fails.
-/

namespace SqlCompose.Statement

inductive Edit where
  | flavor (flavor : Flavor)
  | schemas (schemas : List Value)
  | moreSchemas (schemas : List Value)
  | compaction (compact deep : Value)
  | ctes (ctes : Option (List (Cte Query)))
  | table (table name : Value)
  | name (name : Value)
  | where (connective : Connective) (condition : Condition) (values : List Value)
  | filter (restriction : Restriction)
  | having (condition : Condition) (values : List Value)
  | groupFilter (restriction : Restriction)
  | fields (fields : List Field)
  | moreFields (fields : List Field)
  | distinct (enabled : Value)
  | join (join : Join Query)
  | groups (columns : List Value)
  | moreGroups (columns : List Value)
  | groupBySelected (enabled : Value)
  | order (order : OrderBy)
  | noOrder
  | limit (count : Nat)
  | offset (count : Nat)
  | noPaging
  | member (member : Member Query)
  | rows (rows : List (Value × Value))
  | row (column value : Value)
  | columns (columns : List Value)
  | source (query : Query)
  | assignments (assignments : List (Value × Assigned))
  | assignment (column : Value) (assigned : Assigned)
  | other (table name : Value)
  | returning (fields : List Field)
  | moreReturning (fields : List Field)
  | reset

/-- Conditions with one more linked to them. Only a chain can be linked to. -/
def linkTo (connective : Connective) (condition : Condition) (values : List Value) : Restriction → Build Restriction
  | .chain held => do
    return .chain { held with item := ← held.item.link (.text (Keyword.word connective)) condition values }
  | _ => throw .attributeMissing

/-- A condition on the rows: a chain without values of its own becomes the whole condition if there is none yet, and then it is a copy, held by nobody else. All else is linked to what there is. -/
def restrict (connective : Connective) (condition : Condition) (values : List Value) (filter : Restriction) :
    Build Restriction := do
  let adopted := match condition with
    | .chain chain => if connective = .and && values.isEmpty && filter.isVacant then some chain else none
    | _ => none
  match adopted with
  | some chain => return .chain ⟨chain, none⟩
  | none => linkTo connective condition values filter

namespace Edit

def apply (statement : Statement Query) : Edit → Build (Statement Query)
  | .flavor f => statement.changeSettings ({ · with flavor := f })
  | .schemas names => statement.changeSettings ({ · with schemas := names })
  | .moreSchemas names => statement.changeSettings fun s => { s with schemas := s.schemas ++ names }
  | .compaction on deeply => statement.changeSettings ({ · with compact := on, deep := deeply })
  | .ctes list => statement.setCtes list
  | .table reference shortName => statement.setTable reference shortName
  | .name shortName => statement.changeCompound ({ · with name := shortName })
  | .where connective condition values => statement.changeFilter (restrict connective condition values)
  | .filter restriction => statement.changeFilter fun _ => return restriction
  | .having condition values => statement.changeHaving (linkTo .and condition values)
  | .groupFilter restriction => statement.changeHaving fun _ => return restriction
  | .fields list => statement.changeFields fun _ => list
  | .moreFields more => statement.changeFields (· ++ more)
  | .distinct enabled => statement.changeSelect ({ · with distinct := enabled })
  | .join joined => statement.addJoin joined
  | .groups list => statement.changeGroups fun _ => list
  | .moreGroups more => statement.changeGroups (· ++ more)
  | .groupBySelected enabled => statement.changeSelect ({ · with groupBySelected := enabled })
  | .order entry => statement.changeOrders (· ++ [entry])
  | .noOrder => statement.changeOrders fun _ => []
  | .limit count => statement.changePaging ({ · with limit := some count })
  | .offset count => statement.changePaging ({ · with offset := some count })
  | .noPaging => statement.changePaging fun _ => {}
  | .member added => statement.changeCompound fun c => { c with members := c.members ++ [added] }
  | .rows list => statement.changeInsert ({ · with rows := list })
  | .row column value => statement.changeInsert fun i => { i with rows := i.rows ++ [(column, value)] }
  | .columns list => statement.changeInsert ({ · with columns := list })
  | .source query => statement.changeInsert ({ · with source := some query })
  | .assignments list => statement.changeUpdate ({ · with assignments := list })
  | .assignment column assigned =>
    statement.changeUpdate fun u => { u with assignments := u.assignments ++ [(column, assigned)] }
  | .other reference shortName => statement.addOther reference shortName
  | .returning list => statement.changeReturning fun _ => list
  | .moreReturning more => statement.changeReturning (· ++ more)
  | .reset => statement.changeSelect Select.cleared

def heldChain? : Restriction → Option (Label × Chain)
  | .chain held => held.holder.map (·, held.item)
  | _ => none

/-- The chain that a change has put a link into, if somebody holds that chain. -/
def linked? (statement : Statement Query) : Edit → Option (Label × Chain)
  | .where _ _ _ => statement.filter?.bind heldChain?
  | .having _ _ => statement.having?.bind heldChain?
  | _ => none

end Edit

end SqlCompose.Statement
