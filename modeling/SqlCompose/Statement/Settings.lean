import SqlCompose.Identifier

/-!
# Settings of a statement

What every statement that carries values has besides its clauses: the flavor of its quotes, the schemas for its schema tokens, and how its values are compacted when nothing else is asked for.

Names, schemas and switches are kept as the values that were given. Whether they are there, and what they are written as, is found out when the statement is built, so a value that changes in the meantime counts as it is then.
-/

namespace SqlCompose

structure Settings where
  flavor : Flavor := .postgres
  schemas : List Value := []
  compact : Value := .bool false
  deep : Value := .bool false
  deriving Repr

/-- A part that its caller may go on holding and changing: what it is now, and the label under which the caller holds it. -/
structure Held (α : Type) where
  item : α
  holder : Option Label := none
  deriving Repr

namespace Held

def detached {α : Type} (held : Held α) : Held α :=
  ⟨held.item, none⟩

/-- Changes a part and leaves it in the same hands. -/
def map {α : Type} (f : α → α) (held : Held α) : Held α :=
  { held with item := f held.item }

/-- A part as its holder has it, given what is found under each label. -/
def resolved {α : Type} (find? : Label → Option α) (held : Held α) : Held α :=
  { held with item := (held.holder.bind find?).getD held.item }

end Held

/-- A value behind an opening, or nothing at all if it counts as false. -/
def behind (opening : Text) (name : Value) : Except Error Text :=
  if name.truthy then name.printed.map (opening ++ ·) else .ok []

end SqlCompose
