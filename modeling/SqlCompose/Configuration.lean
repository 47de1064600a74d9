import SqlCompose.Keyword
import SqlCompose.Text.Path
import SqlCompose.Value.Reading

/-!
# Configuration

Defaults for new statements, and the settings of the log, are read from named texts such as environment variables. What is not given has a default.
-/

namespace SqlCompose

abbrev Environment := List (Text × Text)

/-! ### Switches -/

def switchWords : List Text :=
  ["1", "true", "yes", "on"]

/-- A switch given as a text: a missing or blank text leaves the default, and four words turn it on. -/
def parseSwitch (given : Option Text) (default : Value) : Value :=
  match given with
  | none => default
  | some text =>
    let word := Text.lower (Text.trim text)
    if word.isEmpty then default else .bool (switchWords.contains word)

/-- A switch given as a value. Bytes turn nothing on. -/
def switchOf (default : Value) : Value → Except Error Value
  | .null => .ok default
  | .bytes content | .byteArray _ content => .ok (if content.all Value.isBlankByte then default else .bool false)
  | given => match given.text? with
    | some text => .ok (parseSwitch (some text) default)
    | none => .error .attributeMissing

/-! ### Defaults -/

structure Defaults where
  flavor : Flavor := .postgres
  compact : Value := .bool false
  deep : Value := .bool false
  deriving Repr

namespace Defaults

private def unknown (given : Text) : Error :=
  .unknownFlavor given ((Keyword.members (α := Flavor)).map Keyword.word)

/-- The flavor must be one of the known ones, in any case and with blanks around it at most. -/
def make (flavor : Text) (compact deep : Value) : Except Error Defaults :=
  let word := Text.lower (Text.trim flavor)
  match Keyword.ofWord? word with
  | some flavor => .ok ⟨flavor, compact, deep⟩
  | none => .error (unknown word)

/-- Defaults from values. Bytes are brought to small letters as a text is, but they name no flavor. -/
def ofValue (flavor compact deep : Value) : Except Error Defaults := do
  match flavor with
  | .bytes content => throw (unknown (← (Value.bytes (Value.plainBytes content)).printed))
  | .byteArray label content => throw (unknown (← (Value.byteArray label (Value.plainBytes content)).printed))
  | _ => make (← flavor.asReference) compact deep

end Defaults

/-! ### Settings -/

/-- Where log files go: the directory that comes with the installation, or a given one. -/
inductive LogDirectory where
  | standard
  | given (path : Text)
  deriving DecidableEq, Repr

structure Configuration where
  defaults : Defaults := {}
  logLevel : Text := "INFO"
  logFile : Option Text := none
  logDirectory : LogDirectory := .standard
  deriving Repr

namespace LogDirectory

def shown : LogDirectory → Text
  | standard => "logs"
  | given path => path

end LogDirectory

namespace Environment

/-- Texts can be given names that are not empty and have no equals sign; neither may have a null character. -/
def check : Environment → Except Error Unit
  | [] => .ok ()
  | (name, text) :: rest =>
    if name.contains '\x00' || text.contains '\x00' then .error (.badShape "embedded null byte")
    else if name.contains '=' then .error (.badShape "illegal environment variable name")
    else if name.isEmpty then .error .nameMissing
    else check rest

end Environment

namespace Configuration

def ofEnvironment (environment : Environment) : Except Error Configuration := do
  environment.check
  let setting (name : Text) : Option Text := environment.lookup ("QUERYKIT_" ++ name)
  let defaults ← Defaults.make ((setting "SQL_FLAVOR").getD "postgres")
    (parseSwitch (setting "COMPACT_PARAMS") (.bool false)) (parseSwitch (setting "DEEP_COMPARE") (.bool false))
  return {
    defaults
    logLevel := Text.upper ((setting "LOG_LEVEL").getD "INFO")
    logFile := (setting "LOG_FILE").filter (!·.isEmpty)
    logDirectory := match setting "LOG_DIR" with
      | none => .standard
      | some path => .given (Text.normalPath path) }

end Configuration

end SqlCompose
