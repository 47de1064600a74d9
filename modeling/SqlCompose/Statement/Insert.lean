import SqlCompose.Statement.Cte
import SqlCompose.Text.Blank

/-!
# INSERT

A row of values, or the rows that another statement gives. Without a column list of its own, the latter takes the columns that the other statement is known to give.
-/

namespace SqlCompose

structure Insert (Q : Type) where
  settings : Settings := {}
  ctes : Option (List (Cte Q)) := none
  table : Value := .null
  rows : List (Value × Value) := []
  columns : List Value := []
  source : Option Q := none
  returning : List Field := []
  deriving Repr

/-! ### Output names -/

namespace OutputColumn

def isNamePart (c : Char) : Bool :=
  Text.isWord c || c = '$'

def dropQuote : Text → Text
  | '"' :: rest => rest
  | rest => rest

/-- A run of word characters and dollar signs, perhaps in double quotes, and what follows it. -/
def name? (text : Text) : Option (Text × Text) :=
  let body := dropQuote text
  let run := body.takeWhile isNamePart
  if run.isEmpty then none else some (run, dropQuote (body.drop run.length))

def atEnd (text : Text) : Bool :=
  match text with
  | [] | ['\n'] => true
  | _ => false

/-- The alias at the end of a text that goes on after a column. -/
def aliasAtEnd? (text : Text) : Option Text :=
  match text with
  | blank :: _ =>
    if Text.isBlank blank then
      match text.dropWhile Text.isBlank with
      | a :: s :: blank' :: rest =>
        if (a = 'a' || a = 'A') && (s = 's' || s = 'S' || s = 'ſ') && Text.isBlank blank' then
          match name? (rest.dropWhile Text.isBlank) with
          | some (run, after) => if atEnd after then some run else none
          | none => none
        else none
      | _ => none
    else none
  | [] => none

/-- The alias if there is one, or else the column, of a text that reads as one column. -/
def finish? (column after : Text) : Option Text :=
  if atEnd after then some column else aliasAtEnd? after

/-- The name under which a column list entry gives its values, if it has the form of a column with at most one qualifier, each name perhaps in double quotes, and an alias or none. -/
def ofReference? (reference : Text) : Option Text := do
  let (first, after) ← name? reference
  match after with
  | '.' :: rest => do
    let (second, after) ← name? rest
    finish? second after
  | _ => finish? first after

end OutputColumn

namespace Insert

variable {Q R : Type}

def map (f : Q → R) (insert : Insert Q) : Insert R :=
  { insert with ctes := insert.ctes.map (·.map (Cte.map f)), source := insert.source.map f }

def targetColumn (flavor : Flavor) (column : Value) : Except Error Text :=
  column.asText.map fun reference => Identifier.quote flavor ((OutputColumn.ofReference? reference).getD reference)

def targetColumns (insert : Insert Q) (source : Child) : Except Error (List Text) := do
  let flavor := insert.settings.flavor
  if insert.columns.isEmpty then (← source.columns).mapM (targetColumn flavor)
  else Identifier.quoteColumns flavor insert.columns

def rowClause (insert : Insert Q) : Clause := fun start => do
  let target ← Identifier.quoteTableValue insert.settings.flavor insert.table
  let columns ← Identifier.quoteColumns insert.settings.flavor (insert.rows.map (·.1))
  let numbers := Token.numbersFrom start insert.rows.length
  Numeral.check numbers
  return some ⟨"INSERT INTO " ++ target ++ " (" ++ Text.join ", " columns ++ ") VALUES (" ++
    Text.join ", " (numbers.map Token.numbered) ++ ")", insert.rows.map (·.2), start + insert.rows.length⟩

def sourceClause (insert : Insert Q) (source : Child) : Clause := fun start => do
  let target ← Identifier.quoteTableValue insert.settings.flavor insert.table
  let columns ← insert.targetColumns source
  let listed : Text := if columns.isEmpty then [] else " (" ++ Text.join ", " columns ++ ")"
  let built ← source.build
  let inner ← (← built.toFragment).renumber start
  return some ⟨"INSERT INTO " ++ target ++ listed ++ "\n" ++ inner.text.printed, inner.values, inner.next⟩

def render (insert : Insert Child) : Build Fragment := do
  Build.require insert.table.truthy Clause.queryLogger .insertTable
  let body ← match insert.rows, insert.source with
    | [], none => Build.failFor Clause.queryLogger .insertRows
    | [], some source => pure (insert.sourceClause source)
    | _ :: _, _ => pure insert.rowClause
  Clause.assemble [.with insert.ctes, body, .returning insert.settings.flavor insert.returning]

def build (insert : Insert Child) : Option Bool → Option Bool → Build BuiltQuery :=
  insert.settings.finish .insert insert.render

end Insert

end SqlCompose
