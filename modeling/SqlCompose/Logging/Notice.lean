import SqlCompose.LogRecord

/-!
# The notice

A message that is logged once, until it is reset.
-/

namespace SqlCompose.Notice

inductive Action where
  | announce
  | reset
  deriving DecidableEq, Repr

structure Reply where
  shown : Option Bool
  records : List LogRecord
  deriving DecidableEq, Repr

def record : LogRecord where
  logger := "querykit.notice"
  level := .info
  message := "Thanks for using querykit! Bug reports and feature requests are welcome on the project issue tracker."

/-- Announcing logs the message only if it was not shown since the last reset. -/
def step (shown : Bool) : Action → Reply × Bool
  | .announce => if shown then (⟨some false, []⟩, true) else (⟨some true, [record]⟩, true)
  | .reset => (⟨none, []⟩, false)

def run (shown : Bool) : List Action → List Reply
  | [] => []
  | action :: actions => (step shown action).1 :: run (step shown action).2 actions

end SqlCompose.Notice
