import SqlCompose.Statement.Clause
import SqlCompose.Value.Equality

/-!
# Entries of an order

An entry is given as an entry, as a field, as a field and a direction, or as a dictionary with `field` or `column` and perhaps `direction`. Where it names no direction, the direction of the call holds. Among the values an entry is a record of its field and its direction.
-/

namespace SqlCompose.OrderBy

def make (field direction : Value) : Except Error OrderBy :=
  (Direction.ofValue direction).map fun direction => ⟨field, direction⟩

def toValue (order : OrderBy) : Build Value := do
  return .record (← Build.freshLabel) .orderBy [order.field, .entry (Keyword.entry order.direction)]

def ofValue? : Value → Option OrderBy
  | .record _ .orderBy [field, .entry e] => (Keyword.ofEntry? e).map fun direction => ⟨field, direction⟩
  | _ => none

/-- The field of a dictionary: `field` if it is there at all, else `column`. -/
def fieldOf (entries : List (Value × Value)) : Value :=
  match Value.entry? (.text "field") entries with
  | some field => field
  | none => (Value.entry? (.text "column") entries).getD .null

def ofItems : List Value → Except Error OrderBy
  | [field] => make field (.text "ASC")
  | [field, direction] => make field direction
  | _ => .error .badArgument

def ofEntry (direction value : Value) : Except Error OrderBy :=
  match ofValue? value, value.tuple? with
  | some order, _ => .ok order
  | none, some items => ofItems items
  | none, none =>
    match value with
    | .dict _ entries =>
      let field := fieldOf entries
      if field.truthy then make field ((Value.entry? (.text "direction") entries).getD direction)
      else do throw (.clause (.orderWithoutField (← value.shown)))
    | field => make field direction

end SqlCompose.OrderBy
