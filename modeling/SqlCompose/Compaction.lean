import SqlCompose.Fragment
import SqlCompose.Value.Equality

/-!
# Compaction

Compaction lets placeholders with the same value share one number. Values are the same in one of two senses. Shallow: they have one type, and they are equal keys or, if they cannot be keys, one object. Deep: they have one type and are equal. Numbers are given out again from one, in the order in which the values first occur; a value that no placeholder uses is dropped.
-/

namespace SqlCompose

inductive Sameness where
  | shallow
  | deep
  deriving DecidableEq, Repr

namespace Sameness

/-- Whether two values count as the same; `none` if they cannot be compared. -/
def holds (sameness : Sameness) (left right : Value) : Option Bool :=
  if left.typeName = right.typeName then
    match sameness with
    | deep => left.equal right
    | shallow =>
      if left.hashable && right.hashable then some (left.same right) else some (left.identical right)
  else some false

def place? (sameness : Sameness) (value : Value) : List Value → Except Error (Option Nat)
  | [] => .ok none
  | kept :: rest =>
    match sameness.holds kept value with
    | none => .error .incomparable
    | some true => .ok (some 0)
    | some false => (place? sameness value rest).map (·.map (· + 1))

end Sameness

namespace Compaction

/-- The values kept so far, and the new number of each old number met so far. -/
structure State where
  kept : List Value := []
  numbers : List (Nat × Nat) := []
  deriving Repr

def step (sameness : Sameness) (fragment : Fragment) (state : State) (old : Nat) : Except Error State :=
  if (state.numbers.lookup old).isSome then .ok state
  else if old = 0 then .error (fragment.misfit old)
  else match fragment.values[old - 1]? with
    | none => .error (fragment.misfit old)
    | some value => do
      match ← sameness.place? value state.kept with
      | some place => return { state with numbers := (old, place + 1) :: state.numbers }
      | none => return ⟨state.kept ++ [value], (old, state.kept.length + 1) :: state.numbers⟩

def renamed (numbers : List (Nat × Nat)) : Token → Text
  | .placeholder digits =>
    let old := Text.numeralValue digits
    Token.numbered ((numbers.lookup old).getD old)
  | token => token.source

end Compaction

/-- The fragment with the same values on one placeholder. -/
def Fragment.compact (sameness : Sameness) (fragment : Fragment) : Except Error Fragment := do
  let indices ← Token.readPlaceholders fragment.text.content
  let state ← indices.foldlM (Compaction.step sameness fragment) {}
  return ⟨.plain ((Token.read fragment.text.content).flatMap (Compaction.renamed state.numbers)), state.kept⟩

end SqlCompose
