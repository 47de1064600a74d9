import SqlCompose.Chain
import SqlCompose.Query

/-!
# Conditions

Whatever can be given as a condition: a text with markers and its values, a predicate, a chain, or a query to be embedded. Each becomes a predicate. A predicate and a chain bring their own values, so further values do not fit them; a query is built for this without compaction, and further values are ignored.

Two kinds of thing become no predicate: those that are built, but not as a part of a statement, fail at once, and all others when their values have been looked at.
-/

namespace SqlCompose

inductive Condition where
  | text (text : Wording)
  | predicate (predicate : Predicate)
  | chain (chain : Chain)
  | query (query : Query)
  | unbuildable
  | unusable

namespace Condition

private def refuseFurther (text : Text) (own : Nat) (further : List Value) : Error :=
  .mismatch text own (own + further.length)

def toPredicate (values : List Value) : Condition → Build Predicate
  | text t => Predicate.make t values
  | predicate p => if values.isEmpty then pure p else throw (refuseFurther p.text.printed p.values.length values)
  | chain c => do
    let p ← c.toPredicate true
    if values.isEmpty then return p else throw (refuseFurther p.text.printed c.values.length values)
  | query q => do (← q.build (some false) none).toPredicate
  | unbuildable => throw .badArgument
  | unusable => do
    let _ ← Value.checkAll values
    throw .badArgument

/-- An empty chain without values asks for nothing. -/
def isVacant (values : List Value) : Condition → Bool
  | chain c => c.isEmpty && values.isEmpty
  | _ => false

end Condition

end SqlCompose
