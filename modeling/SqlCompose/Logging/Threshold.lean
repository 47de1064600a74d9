import SqlCompose.LogRecord
import SqlCompose.Text.LetterCase
import SqlCompose.Value.Reading

/-!
# Thresholds

A threshold is the least severity that a logger or a handler lets pass. It is given by the name of a level in any case, or by a name for no threshold at all.
-/

namespace SqlCompose

namespace Threshold

def ofName? (name : Text) : Option Nat :=
  if name = "NOTSET" then some 0 else (LogLevel.ofName? name).map LogLevel.severity

/-- A threshold that is given as a value. What has no upper case fails as such, and bytes name no level. -/
def parse (given : Value) : Except Error Nat := do
  match given with
  | .byteArray _ _ => throw .badArgument
  | .bytes _ => do throw (.unknownLevel (← given.shown))
  | _ =>
    match ofName? (Text.upper (← given.asReference)) with
    | some threshold => return threshold
    | none => throw (.unknownLevel (← given.printed))

end Threshold

/-- A logger under its name, with its own threshold; nought is none. -/
structure Logger where
  name : Text
  threshold : Nat
  deriving DecidableEq, Repr

namespace Logger

def rootName : Text := "root"

/-- The name of the logger that a name stands for. The empty name is that of the root. -/
def nameFor (name : Text) : Text :=
  if name.isEmpty then rootName else name

/-- The logger with a name. The root begins with a threshold of its own. -/
def ofName (name : Text) : Logger :=
  if nameFor name = rootName then ⟨rootName, LogLevel.warning.severity⟩ else ⟨name, 0⟩

/-- The logger that a value names; what counts as false stands for the root. -/
def ofValue (name : Value) : Except Error Logger := do
  if name.truthy then return ofName (← name.asText) else return ofName []

def withLevel (name level : Value) : Except Error Logger := do
  let logger ← ofValue name
  if level.truthy then return { logger with threshold := ← Threshold.parse level } else return logger

end Logger

end SqlCompose
