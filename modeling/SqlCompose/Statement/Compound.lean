import SqlCompose.Statement.Cte

/-!
# Compound statements

Statements joined by set operators, used as a table under an alias with clauses of its own around it. Every member is built on its own before any is numbered. The operator of the first member is not written.
-/

namespace SqlCompose

structure Member (Q : Type) where
  query : Q
  operator : SetOperator
  deriving Repr

structure Compound (Q : Type) where
  settings : Settings := {}
  ctes : Option (List (Cte Q)) := none
  name : Value := .null
  members : List (Member Q) := []
  fields : List Field := []
  filter : Restriction := .none
  groups : List Value := []
  having : Restriction := .none
  orders : List OrderBy := []
  paging : Paging := {}
  deriving Repr

namespace Compound

variable {Q R : Type}

def map (f : Q → R) (compound : Compound Q) : Compound R :=
  { compound with
    ctes := compound.ctes.map (·.map (Cte.map f))
    members := compound.members.map fun member => ⟨f member.query, member.operator⟩ }

def renderMembers (compound : Compound Child) (start : Int) : Build Fragment.Merged := do
  Build.require (!compound.members.isEmpty) Clause.queryLogger .unionMembers
  let built ← compound.members.mapM (·.query.build)
  Fragment.mergeFrom BuiltQuery.toFragment start built

def laterMember (wrap : Text → Text) (text : Text) (operator : SetOperator) : Text :=
  "\n\n" ++ wrap (Keyword.word operator) ++ "\n\n" ++ text

/-- Texts of members with the operators between them; in a wrapped list each member is in parentheses, and all is set in by one space. The first member of a list that is not wrapped is not set into anything. -/
def joinMembers (wrapped : Bool) (texts : List Wording) (operators : List SetOperator) : Text :=
  let wrap := if wrapped then Text.indent 1 else id
  let written (text : Wording) : Text := if wrapped then Text.indent 1 ("(" ++ text.printed ++ ")") else text.printed
  match texts with
  | [] => []
  | first :: rest =>
    (if wrapped then written first else first.content) ++
      (rest.zip operators.tail).flatMap fun (text, operator) => laterMember wrap (written text) operator

def operators (compound : Compound Q) : List SetOperator :=
  compound.members.map (·.operator)

/-- The members without the table around them; only the schemas are put in. -/
def buildMembers (compound : Compound Child) : Build BuiltQuery := do
  let head ← Clause.with compound.ctes 1
  let merged ← compound.renderMembers ((head.map (·.next)).getD 1)
  let body := joinMembers false merged.texts compound.operators
  let (text, values) := match head with
    | none => (body, merged.values)
    | some head => (head.text ++ "\n" ++ body, head.values ++ merged.values)
  BuiltQuery.make (← Identifier.substituteSchemas compound.settings.schemas text) values

/-- What stands before the members: the column list of the outer statement. -/
def opening (compound : Compound Q) : Except Error Text :=
  if compound.fields.isEmpty then .ok "SELECT * FROM ("
  else (Field.renderAll compound.settings.flavor compound.fields).map fun fields =>
    "SELECT\n " ++ Text.join ",\n " fields ++ "\n FROM ("

def tableClause (compound : Compound Child) : Clause := fun start => do
  let merged ← compound.renderMembers start
  let opening ← compound.opening
  let body := joinMembers true merged.texts compound.operators
  return some ⟨opening ++ "\n" ++ body ++ "\n) AS " ++ (← compound.name.printed), merged.values, merged.next⟩

def groupClause (compound : Compound Q) : Build (Option Text) := do
  if compound.groups.isEmpty then return none
  else return some ("GROUP BY " ++ Text.join ", " (← Identifier.quoteColumns compound.settings.flavor compound.groups))

def render (compound : Compound Child) : Build Fragment := do
  Build.require (!compound.members.isEmpty) Clause.queryLogger .unionMembers
  Build.require compound.name.truthy Clause.queryLogger .unionAlias
  Clause.assemble <|
    [.with compound.ctes, compound.tableClause, .conditions "WHERE" compound.filter,
      .optional compound.groupClause, .conditions "HAVING" compound.having,
      .orderBy compound.settings.flavor compound.orders] ++
    compound.paging.render.map fun line => .plain (liftM line)

def build (compound : Compound Child) : Option Bool → Option Bool → Build BuiltQuery :=
  compound.settings.finish .union compound.render

def detached (compound : Compound Q) : Compound Q :=
  { compound with filter := compound.filter.detached, having := compound.having.detached }

end Compound

end SqlCompose
