import SqlCompose.Text

/-!
# Log records

A record names the logger it was given to, its level, and its message.
-/

namespace SqlCompose

inductive LogLevel where
  | debug
  | info
  | warning
  | error
  | critical
  deriving DecidableEq, Repr

structure LogRecord where
  logger : Text
  level : LogLevel
  message : Text
  deriving DecidableEq, Repr

namespace LogLevel

def name : LogLevel → Text
  | debug => "DEBUG"
  | info => "INFO"
  | warning => "WARNING"
  | error => "ERROR"
  | critical => "CRITICAL"

/-- The level with a name; two levels have a second name. -/
def ofName? (name : Text) : Option LogLevel :=
  if name = "WARN" then some warning
  else if name = "FATAL" then some critical
  else [debug, info, warning, error, critical].find? fun level => level.name = name

/-- The severity as a number; a record passes a threshold that is no higher. -/
def severity : LogLevel → Nat
  | debug => 10
  | info => 20
  | warning => 30
  | error => 40
  | critical => 50

end LogLevel

end SqlCompose
