import SqlCompose.Error
import SqlCompose.Text.Blank
import SqlCompose.Text.LetterCase
import SqlCompose.Value.Shown

/-!
# Keywords

The closed sets of words that choose between forms of a clause. A word is read without regard to case and to blanks around it; in a keyword of several words any run of blanks between them counts as one space. Every set is a named list, and an entry of the list can be given instead of a word; an entry of another list is no word of this one.
-/

namespace SqlCompose

/-- One set of keywords: the name of its list, its members and their words. -/
class Keyword (α : Type) where
  listName : Text
  members : List α
  word : α → Text

namespace Keyword

variable {α : Type} [Keyword α]

def ofWord? (given : Text) : Option α :=
  (members (α := α)).find? fun member => word member = given

/-- Upper case, with one space between words. -/
def normal (given : Text) : Text :=
  Text.upper (Text.join " " (Text.words given))

/-! ### Entries -/

/-- The list entry of a member. It is named by the word in capitals, with underscores for spaces. -/
def entry (member : α) : ListEntry :=
  ⟨listName α, (Text.upper (word member)).map fun c => if c = ' ' then '_' else c, word member⟩

def ofEntry? (entry : ListEntry) : Option α :=
  if entry.list = listName α then ofWord? entry.word else none

/-- Reads a value: an entry of the list, or anything that can be read as it is printed. -/
def ofValue (parse : Text → Except Error α) (value : Value) : Except Error α :=
  let member? : Option α := match value with
    | .entry e => ofEntry? e
    | _ => none
  match member? with
  | some member => .ok member
  | none => do parse (← value.printed)

def parse (label given : Text) : Except Error α :=
  match ofWord? (normal given) with
  | some member => .ok member
  | none => .error (.clause (.keyword label given ((members (α := α)).map word)))

end Keyword

inductive Flavor where
  | postgres
  | mysql
  | sqlite
  | mssql
  | oracle
  deriving DecidableEq, Repr

inductive Connective where
  | and
  | or
  deriving DecidableEq, Repr

inductive JoinKind where
  | inner
  | left
  | right
  | full
  | cross
  deriving DecidableEq, Repr

inductive Direction where
  | ascending
  | descending
  deriving DecidableEq, Repr

inductive SetOperator where
  | union
  | unionAll
  | intersect
  | intersectAll
  | except
  | exceptAll
  deriving DecidableEq, Repr

inductive ReferentialAction where
  | cascade
  | setNull
  | setDefault
  | restrict
  | noAction
  deriving DecidableEq, Repr

/-- What a statement does; the word is part of the log. -/
inductive StatementKind where
  | select
  | insert
  | update
  | delete
  | union
  | cte
  | createTable
  | alterTable
  | dropTable
  deriving DecidableEq, Repr

/-! ### Words -/

instance : Keyword Flavor where
  listName := "SqlFlavor"
  members := [.postgres, .mysql, .sqlite, .mssql, .oracle]
  word
    | .postgres => "postgres"
    | .mysql => "mysql"
    | .sqlite => "sqlite"
    | .mssql => "mssql"
    | .oracle => "oracle"

instance : Keyword Connective where
  listName := "StatementKind"
  members := [.and, .or]
  word
    | .and => "AND"
    | .or => "OR"

instance : Keyword JoinKind where
  listName := "JoinType"
  members := [.inner, .left, .right, .full, .cross]
  word
    | .inner => "INNER"
    | .left => "LEFT"
    | .right => "RIGHT"
    | .full => "FULL"
    | .cross => "CROSS"

instance : Keyword Direction where
  listName := "SortDirection"
  members := [.ascending, .descending]
  word
    | .ascending => "ASC"
    | .descending => "DESC"

instance : Keyword SetOperator where
  listName := "SetOperator"
  members := [.union, .unionAll, .intersect, .intersectAll, .except, .exceptAll]
  word
    | .union => "UNION"
    | .unionAll => "UNION ALL"
    | .intersect => "INTERSECT"
    | .intersectAll => "INTERSECT ALL"
    | .except => "EXCEPT"
    | .exceptAll => "EXCEPT ALL"

instance : Keyword ReferentialAction where
  listName := "ReferentialAction"
  members := [.cascade, .setNull, .setDefault, .restrict, .noAction]
  word
    | .cascade => "CASCADE"
    | .setNull => "SET NULL"
    | .setDefault => "SET DEFAULT"
    | .restrict => "RESTRICT"
    | .noAction => "NO ACTION"

instance : Keyword StatementKind where
  listName := "QueryKind"
  members := [.select, .insert, .update, .delete, .union, .cte, .createTable, .alterTable, .dropTable]
  word
    | .select => "SELECT"
    | .insert => "INSERT"
    | .update => "UPDATE"
    | .delete => "DELETE"
    | .union => "UNION"
    | .cte => "CTE"
    | .createTable => "CREATE TABLE"
    | .alterTable => "ALTER TABLE"
    | .dropTable => "DROP TABLE"

/-! ### Reading words -/

namespace Flavor

/-- A flavor is given in any case, with blanks around it at most. -/
def parse (given : Text) : Except Error Flavor :=
  match Keyword.ofWord? (Text.lower (Text.trim given)) with
  | some flavor => .ok flavor
  | none => .error (.clause (.flavor given))

def ofValue (value : Value) : Except Error Flavor :=
  Keyword.ofValue parse value

end Flavor

namespace Connective

def parse (given : Text) : Except Error Connective :=
  match Keyword.ofWord? (Text.upper (Text.trim given)) with
  | some connective => .ok connective
  | none => .error (.clause (.connective given))

def ofValue (value : Value) : Except Error Connective :=
  Keyword.ofValue parse value

end Connective

def JoinKind.ofValue (value : Value) : Except Error JoinKind :=
  Keyword.ofValue (Keyword.parse "join type") value

def Direction.ofValue (value : Value) : Except Error Direction :=
  Keyword.ofValue (Keyword.parse "sort direction") value

def SetOperator.ofValue (value : Value) : Except Error SetOperator :=
  Keyword.ofValue (Keyword.parse "UNION type") value

namespace ReferentialAction

def parse (given : Text) : Except Error ReferentialAction :=
  match Keyword.ofWord? (Keyword.normal given) with
  | some action => .ok action
  | none => .error (.clause (.referentialAction given))

def ofValue : Value → Except Error (Option ReferentialAction)
  | .null => .ok none
  | given => (Keyword.ofValue parse given).map some

end ReferentialAction

end SqlCompose
