import SqlCompose.Error
import SqlCompose.LogRecord
import SqlCompose.Value

/-!
# Building

Building a statement copies values, logs records and may fail. What it leaves behind, the labels it has given out and the records it has logged, stays even when it fails.
-/

namespace SqlCompose

/-- The next label to give out, and the records so far, latest first. -/
structure Trace where
  nextLabel : Label := 0
  latest : List LogRecord := []

abbrev Build (α : Type) := ExceptT Error (StateM Trace) α

namespace Build

def freshLabel : Build Label :=
  modifyGet fun trace => (trace.nextLabel, { trace with nextLabel := trace.nextLabel + 1 })

def log (logger : Text) (level : LogLevel) (message : Text) : Build Unit :=
  modify fun trace => { trace with latest := ⟨logger, level, message⟩ :: trace.latest }

/-- Fails for want of a part, with a record of level error that says so. -/
def failFor {α : Type} (logger : Text) (omission : Omission) : Build α := do
  log logger .error omission.message
  throw (.incomplete omission)

def require (present : Bool) (logger : Text) (omission : Omission) : Build Unit :=
  if present then pure () else failFor logger omission

def runFrom {α : Type} (trace : Trace) (action : Build α) : Except Error α × Trace :=
  action.run trace

end Build

end SqlCompose
