import SqlCompose.Chain
import SqlCompose.Statement.Settings

/-!
# Restrictions

The conditions on the rows or on the groups of a statement. They are a chain, unless a caller put something else in its place: a predicate serves as it is, and anything else cannot be written. A predicate cannot be copied, and of everything else only an object that has a copy of its own.
-/

namespace SqlCompose

inductive Restriction where
  | chain (chain : Held Chain)
  | predicate (predicate : Predicate)
  | unusable (value : Value) (copied : Bool)
  deriving Repr

namespace Restriction

def none : Restriction :=
  chain ⟨{}, .none⟩

instance : Inhabited Restriction := ⟨none⟩

/-- The conditions numbered from a start; an empty text is no condition. -/
def render (start : Int) : Restriction → Build Numbered
  | chain held => held.item.render start true
  | predicate p => p.render start
  | unusable _ _ => throw .attributeMissing

/-- Fails if the conditions cannot be copied, given how values fail to be. What was copied once can be copied again. -/
def checkCopy (checkValue : Value → Except Error Unit) : Restriction → Except Error Unit
  | chain _ => .ok ()
  | predicate _ => .error .attributeMissing
  | unusable value copied => if copied then .ok () else checkValue value

def detached : Restriction → Restriction
  | chain held => chain held.detached
  | predicate p => predicate p
  | unusable value _ => unusable value true

/-- Whether there is nothing in it that a further condition would have to respect. -/
def isVacant : Restriction → Bool
  | chain held => held.item.isEmpty
  | predicate _ => false
  | unusable value _ => ((BuiltQuery.ofValue? value).map fun built => !built.text.truthy).getD false

end Restriction

end SqlCompose
