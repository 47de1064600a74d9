import SqlCompose.Statement.Clause

/-!
# Common table expressions

A common table expression gives a name to a statement. A set of them is written as one `WITH` clause: each is built on its own, and then all are numbered through in the order in which they were declared.
-/

namespace SqlCompose

structure Cte (Q : Type) where
  name : Value := .null
  query : Option Q := none
  recursive : Value := .bool false
  deriving Repr

namespace Cte

variable {Q R : Type}

def map (f : Q → R) (cte : Cte Q) : Cte R :=
  { cte with query := cte.query.map f }

def logger : Text := "querykit.cte"

/-- The expression with its name; its placeholders are numbered from one. -/
def build (cte : Cte Child) : Build BuiltQuery := do
  Build.require cte.name.truthy logger .cteName
  match cte.query with
  | none => Build.failFor logger (.cteQuery (← cte.name.printed))
  | some child =>
    let built ← child.build
    let opening : Text := if cte.recursive.truthy then "RECURSIVE " else ""
    BuiltQuery.make (opening ++ (← cte.name.printed) ++ " AS (\n" ++ (← built.text.printed) ++ "\n)") built.values

/-- All expressions as one clause; no clause at all for none. -/
def buildAll (ctes : List (Cte Child)) : Build BuiltQuery := do
  if ctes.isEmpty then BuiltQuery.make [] []
  else
    let built ← ctes.mapM build
    let merged ← Fragment.mergeFrom BuiltQuery.toFragment 1 built
    Build.log logger .debug
      ("Built WITH clause of " ++ Text.ofNat merged.texts.length ++ " CTE(s) with " ++
        Text.ofNat merged.values.length ++ " parameter(s)")
    BuiltQuery.make ("WITH " ++ Text.join ", " (merged.texts.map Wording.content)) merged.values

end Cte

/-- The `WITH` clause of a statement, which comes first in it. -/
def Clause.with (ctes : Option (List (Cte Child))) : Clause := fun start => do
  match ctes with
  | none => return none
  | some ctes =>
    let built ← Cte.buildAll ctes
    let text := (← built.wording).content
    if text.isEmpty then return none
    else return some ⟨text, built.values, start + built.values.length⟩

end SqlCompose
