import SqlCompose.Session.Object
import SqlCompose.Value.Reading

/-!
# Sessions

A session names values and objects. An object has a label, and every name of it and every value that contains it refers to this label; so a change of an object or of a container is seen wherever it is held, and nowhere else. What has changed before a failure stays changed.

What is stored of an object may show other objects as they were when it was stored. It is read with the faces that these have now, and with the chains that others hold as they are now.
-/

namespace SqlCompose

structure Session where
  objects : List (Label × Object) := []
  bindings : List (Text × Value) := []
  defaults : Defaults := {}
  trace : Trace := {}

abbrev Act (α : Type) := ExceptT Error (StateM Session) α

def putEntry {κ α : Type} [DecidableEq κ] (key : κ) (value : α) : List (κ × α) → List (κ × α)
  | [] => [(key, value)]
  | (key', value') :: rest => if key' = key then (key, value) :: rest else (key', value') :: putEntry key value rest

/-! ### Faces -/

mutual

/-- A value with the faces that the objects in it have now. -/
def Value.refaced (faceOf : Label → Option ObjectFace) : Value → Value
  | .object label face => .object label ((faceOf label).getD face)
  | .list label items => .list label (refacedItems faceOf items)
  | .tuple label items => .tuple label (refacedItems faceOf items)
  | .record label kind fields => .record label kind (refacedItems faceOf fields)
  | .dict label entries => .dict label (refacedEntries faceOf entries)
  | value => value

def Value.refacedItems (faceOf : Label → Option ObjectFace) : List Value → List Value
  | [] => []
  | item :: items => refaced faceOf item :: refacedItems faceOf items

def Value.refacedEntries (faceOf : Label → Option ObjectFace) : List (Value × Value) → List (Value × Value)
  | [] => []
  | (key, value) :: entries => (refaced faceOf key, refaced faceOf value) :: refacedEntries faceOf entries

end

namespace Session

def stored? (session : Session) (label : Label) : Option Object :=
  session.objects.lookup label

/-- How deep objects can lie in each other, as long as none lies in itself. -/
def depth (session : Session) : Nat :=
  session.objects.length + 1

/-- The face of an object, with objects in it down to some depth. -/
def faceWithin (session : Session) : Nat → Label → Option ObjectFace
  | 0, _ => none
  | depth + 1, label =>
    (session.stored? label).map (Object.face (Value.refaced (session.faceWithin depth)))

def current (session : Session) (value : Value) : Value :=
  value.refaced (session.faceWithin session.depth)

def chain? (session : Session) (label : Label) : Option Chain :=
  match session.stored? label with
  | some (.chain c) => some c
  | _ => none

def object? (session : Session) (label : Label) : Option Object :=
  (session.stored? label).map fun object => (object.resolved session.chain?).mapValues session.current

/-- Fails as the copying of a value fails, with what lies in it followed down to some depth. Only objects have copies, and the makers have none. -/
def checkCopy (session : Session) : Nat → Value → Except Error Unit
  | 0, _ => .error .endlessNesting
  | depth + 1, .object label _ =>
    match session.object? label with
    | some (.query q) => q.statement.checkCopy (session.checkCopy depth)
    | some (.table t) => (t.mapColumnsM (session.checkCopy depth)).map fun _ => ()
    | some (.queryMaker _) | some (.tableMaker _) | none => .error .attributeMissing
    | some _ => .ok ()
  | _ + 1, _ => .error .attributeMissing

def put (session : Session) (label : Label) (object : Object) : Session :=
  { session with objects := putEntry label object session.objects }

/-- The session after the container with a label was changed by its holder. -/
def change (session : Session) (label : Label) (change : Value → Value) : Session :=
  { session with
    bindings := session.bindings.map fun (name, value) => (name, value.changed label change)
    objects := session.objects.map fun (l, object) => (l, object.mapValues (Value.changed label change)) }

end Session

namespace Act

def build {α : Type} (action : Build α) : Act α := fun session =>
  let (result, trace) := Build.runFrom session.trace action
  (result, { session with trace })

def object (label : Label) : Act Object := do
  match (← get).object? label with
  | some object => return object
  | none => throw .attributeMissing

def object? (value : Value) : Act (Option (Label × Object)) := do
  match value with
  | .object label _ => return some (label, ← object label)
  | _ => return none

def put (label : Label) (object : Object) : Act Unit :=
  modify (Session.put · label object)

def new (object : Object) : Act Value := do
  let label ← build Build.freshLabel
  put label object
  return .object label (object.face id)

def bind (name : Text) (value : Value) : Act Unit :=
  modify fun session => { session with bindings := putEntry name value session.bindings }

def valueOf (name : Text) : Act Value := do
  let session ← get
  match session.bindings.lookup name with
  | some value => return session.current value
  | none => throw (.unbound name)

def newTuple (values : List Value) : Act Value := do
  return .tuple (← build Build.freshLabel) values

def newList (values : List Value) : Act Value := do
  return .list (← build Build.freshLabel) values

end Act

end SqlCompose
