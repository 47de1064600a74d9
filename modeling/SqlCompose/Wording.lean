import SqlCompose.Value

/-!
# Wordings

The text of a condition or of a query is a plain text, or else an entry of a list of words that stands in for its word. An entry is its word wherever the text is read, cut or joined to others, but set into another text it is printed with the name of its list.
-/

namespace SqlCompose

inductive Wording where
  | plain (text : Text)
  | entry (entry : ListEntry)
  deriving DecidableEq, Repr

namespace Wording

def content : Wording → Text
  | plain text => text
  | entry e => e.word

/-- The text as it is set into another. -/
def printed : Wording → Text
  | plain text => text
  | entry e => e.list ++ "." ++ e.member

def toValue : Wording → Value
  | plain text => .text text
  | entry e => .entry e

def ofValue? : Value → Option Wording
  | .text t => some (plain t)
  | .entry e => some (entry e)
  | _ => none

@[simp] theorem content_plain (text : Text) : (plain text).content = text := rfl

@[simp] theorem printed_plain (text : Text) : (plain text).printed = text := rfl

end Wording

end SqlCompose
