import SqlCompose.Session.Attribute
import SqlCompose.Session.ChainMethods
import SqlCompose.Session.Container
import SqlCompose.Session.Creation
import SqlCompose.Session.QueryMethods
import SqlCompose.Session.TableMethods
import SqlCompose.Session.View
import SqlCompose.Value.Literal

/-!
# Scripts

A script is a list of steps on one session. A step that fails leaves what it had done before it failed, and the script goes on. In a populating step a fresh chain is bound to a name and filled by steps of its own; what these return becomes the conditions of a statement, and stays in the hands of whoever has a name for it.
-/

namespace SqlCompose

inductive Step where
  | create (kind : Text) (values : List Literal) (named : List (Text × Literal)) (binding : Option Text)
  | call (target method : Text) (values : List Literal) (named : List (Text × Literal)) (binding : Option Text)
  | populate (target : Text) (groups : Bool) (parameter : Text) (steps : List Step) (returns : Option Text)
      (binding : Option Text)
  | read (target name : Text) (index : Option Literal) (binding : Option Text)
  | assign (name : Text) (value : Literal)
  | change (target : Text) (key : Option Literal) (value : Literal)
  | equal (left right : Text)
  | print (target : Text)
  | quote (target : Text)
  | length (target : Text)
  | unpack (target : Text)

namespace Session

/-! ### Calls -/

def objectMethods (label : Label) : Object → Methods (Act Outcome)
  | .chain c => chainMethods label c
  | .query q => queryMethods label q
  | .cte c => cteMethods label c
  | .ctes cs => cteSetMethods label cs
  | .column c => columnMethods label c
  | .table s => tableMethods label s
  | .queryMaker defaults => queryMakerMethods defaults
  | .tableMaker flavor => tableMakerMethods flavor

def methodsOf (value : Value) : Act (Methods (Act Outcome)) := do
  match ← Act.object? value with
  | some (label, object) => return objectMethods label object
  | none => return recordMethods value

def evaluate (literal : Literal) : Act Value := do
  let session ← get
  Act.build (literal.evaluate fun name => (session.bindings.lookup name).map session.current)

def evaluateNamed (named : List (Text × Literal)) : Act (List (Text × Value)) :=
  named.mapM fun (name, literal) => return (name, ← evaluate literal)

/-- The names of operators, which every two values are accepted by only to be refused for their types. -/
def isOperator (method : Text) : Bool :=
  method = "&" || method = "|"

/-- Calls a method. An attribute that is no method cannot be called. -/
def invoke (target : Value) (method : Text) (values : List Value) (named : List (Text × Value)) : Act Outcome := do
  let methods ← methodsOf target
  if ((← attributesOf target).lookup method).isSome then throw .badArgument
  if isOperator method && (methods.lookup method).isNone then throw .badArgument
  methods.call method values named

def bindResult (binding : Option Text) (target : Value) (outcome : Outcome) : Act Unit := do
  match binding, outcome with
  | none, _ => return ()
  | some name, .itself => Act.bind name target
  | some name, .value value => Act.bind name value

/-! ### Populating -/

/-- The conditions that a populating step ends with: what it returns, unless that counts as false, and then the fresh chain. -/
def populated (fresh returned : Value) : Act Restriction := do
  let chosen := if returned.truthy then returned else fresh
  match ← Act.object? chosen with
  | some (label, .chain c) => return .chain ⟨c, some label⟩
  | _ => return ((Predicate.ofValue? chosen).map Restriction.predicate).getD (.unusable chosen false)

def populatedStatement (target : Value) (groups : Bool) : Act Label := do
  match ← Act.object? target with
  | some (label, .query q) =>
    let conditions := if groups then q.statement.having? else q.statement.filter?
    if conditions.isSome then return label else throw .attributeMissing
  | _ => throw .attributeMissing

/-! ### Questions -/

def equalValues (left right : Value) : Except Error Bool :=
  match left.equal right with
  | some answer => .ok answer
  | none => .error .incomparable

def lengthOf (value : Value) : Act Nat := do
  let length? ← match ← Act.object? value with
    | some (_, object) => pure object.length?
    | none => pure value.length?
  match length? with
  | some n => return n
  | none => throw .badArgument

def readAttribute (value : Value) (name : Text) : Act Value := do
  match (← attributesOf value).lookup name with
  | some found => found
  | none => throw .attributeMissing

def unpacked (value : Value) : Act Value := do
  let (first, second) ← value.asPair
  Act.newList [first, second]

/-! ### Steps -/

/-- The object that a step is about, as an observer may want to see it after a failure. -/
def target? : Step → Option Text
  | .call target _ _ _ _ | .populate target _ _ _ _ _ | .read target _ _ _ => some target
  | _ => none

mutual

def perform : Step → Act Outcome
  | .create kind values named binding => do
    let outcome ← creators.call kind (← values.mapM evaluate) (← evaluateNamed named)
    bindResult binding .null outcome
    return outcome
  | .call target method values named binding => do
    let target ← Act.valueOf target
    let outcome ← invoke target method (← values.mapM evaluate) (← evaluateNamed named)
    bindResult binding target outcome
    return outcome
  | .populate target groups parameter steps returns binding => do
    let target ← Act.valueOf target
    let label ← populatedStatement target groups
    let fresh ← Act.new (.chain {})
    Act.bind parameter fresh
    performAll steps
    let returned ← match returns with
      | none => pure Value.null
      | some name => Act.valueOf name
    let conditions ← populated fresh returned
    editStatement label (if groups then .groupFilter conditions else .filter conditions)
    bindResult binding target .itself
    return .itself
  | .read target name index binding => do
    let target ← Act.valueOf target
    let value ← readAttribute target name
    let found ← match index with
      | none => pure value
      | some index => do value.item (← evaluate index)
    bindResult binding target (.value found)
    return .value found
  | .assign name literal => do
    let value ← evaluate literal
    Act.bind name value
    return .value value
  | .change target key literal => do
    let target ← Act.valueOf target
    let key ← key.mapM evaluate
    return .value (← extend target key (← evaluate literal))
  | .equal left right => do
    return .value (.bool (← equalValues (← Act.valueOf left) (← Act.valueOf right)))
  | .print target => do return .value (← (← Act.valueOf target).worded)
  | .quote target => do return .value (.text (← (← Act.valueOf target).shown))
  | .length target => do return .value (.int (← lengthOf (← Act.valueOf target)))
  | .unpack target => do return .value (← unpacked (← Act.valueOf target))

def performAll : List Step → Act Unit
  | [] => return ()
  | step :: steps => do
    let _ ← perform step
    performAll steps

end

/-! ### Answers -/

/-- What a step shows: its result or its failure, the object that the failed step was about, and what was logged. -/
structure Answer where
  result : Except Error View
  state : Option View
  records : List LogRecord

/-- A result as it is seen. A step that gives the object it was about need not show it. -/
def viewOutcome (session : Session) (quiet : Bool) (about : Option Value) : Outcome → View
  | .itself => if quiet then .value .null else (about.map session.view).getD (.value .null)
  | .value value => session.view value

/-- The answer to a step. What the step was about is what its name stood for at the beginning. -/
def answer (session : Session) (quiet : Bool) (step : Step) : Answer × Session :=
  let fresh := { session with trace := { session.trace with latest := [] } }
  let about := (target? step).bind fun name => session.bindings.lookup name
  match (perform step).run fresh with
  | (.ok outcome, after) => (⟨.ok (viewOutcome after quiet about outcome), none, after.trace.latest.reverse⟩, after)
  | (.error error, after) =>
    let state := match error with
      | .unbound _ => none
      | _ => if quiet then none else about.bind after.stateView
    (⟨.error error, state, after.trace.latest.reverse⟩, after)

def run (quiet : Bool) (session : Session) : List Step → List Answer
  | [] => []
  | step :: steps => (answer session quiet step).1 :: run quiet (answer session quiet step).2 steps

end Session

end SqlCompose
