import SqlCompose.Query

/-!
# Parts of a statement

Kinds of statement share parts: all but finished ones have settings and common table expressions, some have conditions, column lists, joins and so on. Each function here changes one part of a statement that has it, and fails on a statement that has not.
-/

namespace SqlCompose.Statement

variable {Q : Type}

def settings? : Statement Q → Option Settings
  | built _ | unbuildable => none
  | select s => some s.settings
  | compound s => some s.settings
  | insert s => some s.settings
  | update s => some s.settings
  | delete s => some s.settings

def filter? : Statement Q → Option Restriction
  | select s => some s.filter
  | compound s => some s.filter
  | update s => some s.filter
  | delete s => some s.filter
  | _ => none

def having? : Statement Q → Option Restriction
  | select s => some s.having
  | compound s => some s.having
  | _ => none

def changeSettings (change : Settings → Settings) : Statement Q → Build (Statement Q)
  | select s => return select { s with settings := change s.settings }
  | compound s => return compound { s with settings := change s.settings }
  | insert s => return insert { s with settings := change s.settings }
  | update s => return update { s with settings := change s.settings }
  | delete s => return delete { s with settings := change s.settings }
  | _ => throw .attributeMissing

def setCtes (ctes : Option (List (Cte Q))) : Statement Q → Build (Statement Q)
  | select s => return select { s with ctes }
  | compound s => return compound { s with ctes }
  | insert s => return insert { s with ctes }
  | update s => return update { s with ctes }
  | delete s => return delete { s with ctes }
  | _ => throw .attributeMissing

def setTable (table name : Value) : Statement Q → Build (Statement Q)
  | select s => return select { s with table, name }
  | insert s => return insert { s with table }
  | update s => return update { s with table, name }
  | delete s => return delete { s with table, name }
  | _ => throw .attributeMissing

def changeFilter (change : Restriction → Build Restriction) : Statement Q → Build (Statement Q)
  | select s => return select { s with filter := ← change s.filter }
  | compound s => return compound { s with filter := ← change s.filter }
  | update s => return update { s with filter := ← change s.filter }
  | delete s => return delete { s with filter := ← change s.filter }
  | _ => throw .attributeMissing

def changeHaving (change : Restriction → Build Restriction) : Statement Q → Build (Statement Q)
  | select s => return select { s with having := ← change s.having }
  | compound s => return compound { s with having := ← change s.having }
  | _ => throw .attributeMissing

def changeFields (change : List Field → List Field) : Statement Q → Build (Statement Q)
  | select s => return select { s with fields := change s.fields }
  | compound s => return compound { s with fields := change s.fields }
  | _ => throw .attributeMissing

def changeGroups (change : List Value → List Value) : Statement Q → Build (Statement Q)
  | select s => return select { s with groups := change s.groups }
  | compound s => return compound { s with groups := change s.groups }
  | _ => throw .attributeMissing

def changeOrders (change : List OrderBy → List OrderBy) : Statement Q → Build (Statement Q)
  | select s => return select { s with orders := change s.orders }
  | compound s => return compound { s with orders := change s.orders }
  | _ => throw .attributeMissing

def changePaging (change : Paging → Paging) : Statement Q → Build (Statement Q)
  | select s => return select { s with paging := change s.paging }
  | compound s => return compound { s with paging := change s.paging }
  | _ => throw .attributeMissing

def addJoin (join : Join Q) : Statement Q → Build (Statement Q)
  | select s => return select { s with joins := s.joins ++ [join] }
  | update s => return update { s with joins := s.joins ++ [join] }
  | _ => throw .attributeMissing

/-- Adds a table that the conditions can refer to; an UPDATE has at most one. -/
def addOther (table name : Value) : Statement Q → Build (Statement Q)
  | update s => return update { s with origin := some (table, name) }
  | delete s => return delete { s with others := s.others ++ [(table, name)] }
  | _ => throw .attributeMissing

def changeReturning (change : List Field → List Field) : Statement Q → Build (Statement Q)
  | insert s => return insert { s with returning := change s.returning }
  | update s => return update { s with returning := change s.returning }
  | delete s => return delete { s with returning := change s.returning }
  | _ => throw .attributeMissing

/-! ### Parts of one kind of statement -/

def changeSelect (change : Select Q → Select Q) : Statement Q → Build (Statement Q)
  | select s => return select (change s)
  | _ => throw .attributeMissing

def changeCompound (change : Compound Q → Compound Q) : Statement Q → Build (Statement Q)
  | compound s => return compound (change s)
  | _ => throw .attributeMissing

def changeInsert (change : Insert Q → Insert Q) : Statement Q → Build (Statement Q)
  | insert s => return insert (change s)
  | _ => throw .attributeMissing

def changeUpdate (change : Update Q → Update Q) : Statement Q → Build (Statement Q)
  | update s => return update (change s)
  | _ => throw .attributeMissing

end SqlCompose.Statement
