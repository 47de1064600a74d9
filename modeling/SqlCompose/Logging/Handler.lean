import SqlCompose.Configuration
import SqlCompose.Logging.File
import SqlCompose.Logging.Layout
import SqlCompose.Logging.Threshold
import SqlCompose.Signature

/-!
# Handlers

The log is set up with one threshold for everything and with handlers: one for the console, with colours or without, and one for a file. A record goes to a handler if it passes the threshold.
-/

namespace SqlCompose

inductive Sink where
  | console
  | file (place : Place)
  deriving DecidableEq, Repr

structure Handler where
  sink : Sink
  threshold : Nat
  layout : Layout
  deriving DecidableEq, Repr

structure LogPlan where
  level : Value
  file : Value
  directory : Value
  console : Value
  colours : Value
  deriving Repr

structure LogSetup where
  threshold : Nat
  handlers : List Handler
  deriving DecidableEq, Repr

namespace LogPlan

def pattern : Text :=
  "%(asctime)s - %(name)s - %(levelname)s - %(message)s"

/-- A coloured line begins with the symbol of its level. -/
def layout (coloured : Bool) : Layout :=
  if coloured then ⟨"%(emoji)s " ++ pattern, true⟩ else ⟨pattern, false⟩

def timePattern : Text :=
  "%Y-%m-%d %H:%M:%S"

/-! ### Plans -/

private def outputSwitches : List (Text × Value) :=
  [("console_output", .bool true), ("use_colors", .bool true)]

private def levelAndFile : List (Text × Value) :=
  [("log_level", .text "INFO"), ("log_file", .null), ("log_dir", .null)]

def ofArguments (named : List (Text × Value)) : Except Error LogPlan := do
  let arguments ← (Signature.plain [] (levelAndFile ++ outputSwitches)).bind [] named
  return ⟨arguments.get "log_level", arguments.get "log_file", arguments.get "log_dir",
    arguments.get "console_output", arguments.get "use_colors"⟩

/-- The plan of a configuration; only the output can be switched. The standard directory lies outside the current one, so its path is absolute. -/
def ofConfiguration (configuration : Configuration) (named : List (Text × Value)) : Except Error LogPlan := do
  let arguments ← (Signature.plain [] outputSwitches).bind [] named
  let directory : Text := match configuration.logDirectory with
    | .standard => "/logs"
    | .given path => path
  return ⟨.text configuration.logLevel, (configuration.logFile.map Value.text).getD .null, .text directory,
    arguments.get "console_output", arguments.get "use_colors"⟩

def pathText : Value → Except Error Text
  | .text t => .ok t
  | .entry e => (Value.entry e).printed
  | _ => .error .badArgument

/-- Where the log file is, if there is one; it is in the directory `logs` if no other is given. -/
def place? (plan : LogPlan) : Except Error (Option Place) := do
  if plan.file.truthy then
    let directory ← if plan.directory.truthy then pathText plan.directory else pure ("logs" : Text)
    return some (← LogFile.create directory (pathText plan.file))
  else return none

def setUp (plan : LogPlan) : Except Error LogSetup := do
  let threshold ← Threshold.parse plan.level
  let place ← plan.place?
  let console : List Handler :=
    if plan.console.truthy then [⟨.console, threshold, layout plan.colours.truthy⟩] else []
  let file : Option Handler := place.map fun place => ⟨.file place, threshold, layout false⟩
  return ⟨threshold, console ++ file.toList⟩

end LogPlan

namespace LogSetup

def output (setup : LogSetup) (time : Text) (records : List LogRecord) (handler : Handler) : Except Error Text := do
  let passed := records.filter fun record => max setup.threshold handler.threshold ≤ record.level.severity
  let lines ← passed.mapM fun record => handler.layout.write ⟨time, record.logger, record.level.name, record.message⟩
  return lines.flatMap (· ++ ['\n'])

def outputTo (setup : LogSetup) (time : Text) (records : List LogRecord) (select : Sink → Bool) : Except Error Text := do
  let outputs ← (setup.handlers.filter fun handler => select handler.sink).mapM (setup.output time records)
  return outputs.flatten

def consoleText (setup : LogSetup) (time : Text) (records : List LogRecord) : Except Error Text :=
  setup.outputTo time records (· = .console)

def localPath? (handler : Handler) : Option Text :=
  match handler.sink with
  | .console => none
  | .file place => place.inside?

def files (setup : LogSetup) (time : Text) (records : List LogRecord) : Except Error (List (Text × Text)) :=
  (setup.handlers.filterMap fun handler => (localPath? handler).map (·, handler)).mapM fun (path, handler) =>
    (setup.output time records handler).map (path, ·)

end LogSetup

end SqlCompose
