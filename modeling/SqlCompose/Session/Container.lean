import SqlCompose.Session.State
import SqlCompose.Value.Equality

/-!
# Containers in a session

Looking into a container, and changing one in place. A container changes wherever it is held.
-/

namespace SqlCompose

namespace Value

def sequence? : Value → Option (List Value)
  | dict _ _ | record _ .builtQuery _ | unbindable _ .set | unbindable _ .frozenset => none
  | value => value.items?

def asPosition : Value → Except Error Int
  | int n => .ok n
  | bool b => .ok (if b then 1 else 0)
  | _ => .error .badArgument

/-- A position among so many items; one below nought counts from the end. -/
def offset (length : Nat) (position : Int) : Except Error Nat :=
  let fromStart := if position < 0 then position + length else position
  if 0 ≤ fromStart && fromStart < length then .ok fromStart.toNat else .error .indexOutOfRange

def item (value key : Value) : Except Error Value :=
  match value with
  | dict _ entries =>
    if key.hashable then
      match entry? key entries with
      | some found => .ok found
      | none => .error .keyMissing
    else .error .badArgument
  | value =>
    match value.sequence? with
    | none => .error .badArgument
    | some items => do
      match items[← offset items.length (← key.asPosition)]? with
      | some found => return found
      | none => throw .indexOutOfRange

def asByte : Value → Except Error UInt8
  | int n => if 0 ≤ n && n < 256 then .ok n.toNat.toUInt8 else .error (.badShape "byte must be in range(0, 256)")
  | bool b => .ok (if b then 1 else 0)
  | _ => .error .badArgument

def appended (item : Value) : Value → Except Error Value
  | list label items => .ok (list label (items ++ [item]))
  | byteArray label content => item.asByte.map fun byte => byteArray label (content ++ [byte])
  | _ => .error .attributeMissing

def replaced (key item : Value) : Value → Except Error Value
  | list label items => do return list label (items.set (← offset items.length (← key.asPosition)) item)
  | byteArray label content => do
    let position ← key.asPosition
    let byte ← item.asByte
    return byteArray label (content.set (← offset content.length position) byte)
  | dict label entries => if key.hashable then .ok (dict label (setEntry key item entries)) else .error .badArgument
  | _ => .error .badArgument

def extended (key : Option Value) (item value : Value) : Except Error Value :=
  match key with
  | none => appended item value
  | some key => replaced key item value

end Value

namespace Session

/-- Puts an item into a container; the container changes wherever it is held. A container that came to lie in itself could not be looked at, so this fails. -/
def extend (target : Value) (key : Option Value) (item : Value) : Act Value := do
  let after ← Value.extended key item target
  match target.label? with
  | some label =>
    if item.holds label then throw .endlessNesting
    modify (Session.change · label fun value => ((Value.extended key item value).toOption).getD value)
    return (← get).current after
  | none => throw .attributeMissing

end Session

end SqlCompose
