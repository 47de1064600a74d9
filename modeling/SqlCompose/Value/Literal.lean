import SqlCompose.Build
import SqlCompose.Value.Equality

/-!
# Literals

A literal is how a value is written down: with names for values that exist already, and without labels. Reading it makes every container new, and every other thing that is equal only to itself; a name stands for the value itself, not for a copy.
-/

namespace SqlCompose

inductive Literal where
  | leaf (value : Value)
  | list (items : List Literal)
  | tuple (items : List Literal)
  | dict (entries : List (Literal × Literal))
  | reference (name : Text)

namespace Literal

/-- A value that contains no other, under a new label if it is one of those that have labels. -/
def relabelled (label : Label) : Value → Value
  | .floatNaN _ => .floatNaN label
  | .decimalNaN _ text => .decimalNaN label text
  | .byteArray _ content => .byteArray label content
  | .unbindable _ kind => .unbindable label kind
  | value => value

/-- Puts entries into a dictionary one after another; only what never changes can be a key. -/
def dictionary (entries : List (Value × Value)) : Except Error (List (Value × Value)) :=
  entries.foldlM (fun entries (key, value) =>
    if key.hashable then .ok (Value.setEntry key value entries) else .error .badArgument) []

mutual

def evaluate (known : Text → Option Value) : Literal → Build Value
  | leaf value => do return relabelled (← Build.freshLabel) value
  | list items => do return .list (← Build.freshLabel) (← evaluateAll known items)
  | tuple items => do return .tuple (← Build.freshLabel) (← evaluateAll known items)
  | dict entries => do
    let label ← Build.freshLabel
    return .dict label (← dictionary (← evaluateEntries known entries))
  | reference name =>
    match known name with
    | some value => return value
    | none => throw (.unbound name)

def evaluateAll (known : Text → Option Value) : List Literal → Build (List Value)
  | [] => return []
  | item :: items => do
    let value ← evaluate known item
    return value :: (← evaluateAll known items)

def evaluateEntries (known : Text → Option Value) : List (Literal × Literal) → Build (List (Value × Value))
  | [] => return []
  | (key, item) :: entries => do
    let key ← evaluate known key
    let value ← evaluate known item
    return (key, value) :: (← evaluateEntries known entries)

end

end Literal

end SqlCompose
