import SqlCompose.Session.Method

/-!
# Methods of common table expressions
-/

namespace SqlCompose.Session

def changeCte (label : Label) (change : Cte Query → Cte Query) : Act Outcome := do
  match ← Act.object label with
  | .cte c =>
    Act.put label (.cte (change c))
    return .itself
  | _ => throw .attributeMissing

def cteMethods (label : Label) (cte : Cte Query) : Methods (Act Outcome) := [
  ("as_", ⟨.plain ["name"] [], fun arguments => changeCte label ({ · with name := arguments.get "name" })⟩),
  ("recursive", ⟨.plain [] [("enabled", .bool true)], fun arguments =>
    changeCte label ({ · with recursive := arguments.get "enabled" })⟩),
  ("with_query", ⟨.plain ["query"] [], fun arguments => do
    let query ← Act.query (arguments.get "query")
    changeCte label ({ · with query := some query })⟩),
  ("build", ⟨.none, fun _ => Act.queryResult (cte.map Query.toChild).build⟩),
  ("clone", ⟨.none, fun _ => Act.newResult (.cte cte)⟩)]

def makeCte (arguments : Arguments) : Act (Cte Query) := do
  let query ← Act.optionalQuery (arguments.get "query")
  return ⟨arguments.get "name", query, arguments.get "recursive"⟩

def addCte (label : Label) (cte : Cte Query) : Act Unit := do
  match ← Act.object label with
  | .ctes cs => Act.put label (.ctes (cs ++ [cte]))
  | _ => throw .attributeMissing

def cteSetEdits : Methods (Changes (Cte Query)) := [
  ("add", ⟨.spread [], fun arguments => ⟨do
    return (← Act.ctesIn arguments.rest).map fun entry => (liftM entry : Act (Cte Query))⟩⟩),
  ("add_cte", ⟨.plain ["name", "query"] [("recursive", .bool false)], fun arguments => .one (makeCte arguments)⟩)]

def cteSetResults (ctes : List (Cte Query)) : Methods (Act Outcome) := [
  ("build", ⟨.none, fun _ => Act.queryResult (Cte.buildAll (ctes.map (Cte.map Query.toChild)))⟩),
  ("clone", ⟨.none, fun _ => Act.newResult (.ctes ctes)⟩)]

def cteSetMethods (label : Label) (ctes : List (Cte Query)) : Methods (Act Outcome) :=
  cteSetEdits.changing (addCte label) ++ cteSetResults ctes

end SqlCompose.Session
