import SqlCompose.Session.Reading

/-!
# Methods

A method has a name, a signature, and what it does with its arguments. Most methods only change the object they are called on: they give a list of changes, each read from the arguments when its turn comes. The others give a result.
-/

namespace SqlCompose

/-- What a call gives: the very object it was made on, or a value. -/
inductive Outcome where
  | itself
  | value (value : Value)

structure Method (α : Type) where
  signature : Signature
  run : Arguments → α

abbrev Methods (α : Type) := List (Text × Method α)

structure Changes (E : Type) where
  list : Act (List (Act E))

namespace Changes

variable {E : Type}

def one (change : Act E) : Changes E :=
  ⟨pure [change]⟩

/-- Changes that need nothing from the session. -/
def given (changes : List E) : Changes E :=
  ⟨pure (changes.map pure)⟩

/-- Makes changes until one fails; those before it stay made. -/
def makeAll (make : E → Act Unit) (changes : Changes E) : Act Unit := do
  (← changes.list).forM fun change => do make (← change)

end Changes

namespace Methods

/-- A method that makes changes and gives the object itself. -/
def changing {E : Type} (make : E → Act Unit) (methods : Methods (Changes E)) : Methods (Act Outcome) :=
  methods.map fun (name, method) => (name, ⟨method.signature, fun arguments => do
    (method.run arguments).makeAll make
    return .itself⟩)

def call (methods : Methods (Act Outcome)) (name : Text) (values : List Value) (named : List (Text × Value)) :
    Act Outcome := do
  match methods.lookup name with
  | none => throw .attributeMissing
  | some method => method.run (← method.signature.bind values named)

end Methods

/-! ### Results -/

namespace Act

def newResult (object : Object) : Act Outcome :=
  return .value (← new object)

def builtResult (action : Build Value) : Act Outcome :=
  return .value (← build action)

def queryResult (action : Build BuiltQuery) : Act Outcome :=
  builtResult do (← action).toValue

def predicateResult (action : Build Predicate) : Act Outcome :=
  builtResult do (← action).toValue

end Act

end SqlCompose
