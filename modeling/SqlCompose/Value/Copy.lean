import SqlCompose.Build
import SqlCompose.Value.Shown

/-!
# Checking and copying values

A value is taken over by copying it: every list, tuple, dictionary and array of bytes in it becomes a new object with the same content, and everything that cannot change is kept as it is. A rendered text is a tuple, and its copy is a plain one. Before a value is bound it is checked at every depth.
-/

namespace SqlCompose.Value

/-! ### What can be bound -/

private def firstFault : Option Error → Option Error → Option Error
  | some error, _ => some error
  | none, next => next

/-- The refusal of a value of some kind. It quotes the value, so it fails itself where the value cannot be shown. -/
def kindRefusal (kind : Text) : Except Error Text → Error
  | .ok shown => .unsupportedValue kind shown
  | .error error => error

mutual

/-- The first thing in a value, from the outside in and from left to right, that cannot be bound. -/
def fault? : Value → Option Error
  | list _ items | tuple _ items | record _ .rendered items => faultItems? items
  | dict _ entries => firstFault (faultKeys? entries) (faultEntries? entries)
  | unbindable _ kind => some (.unsupportedValue kind.typeName kind.shown)
  | object label face => some (kindRefusal face.kind (object label face).shown)
  | record label kind fields => some (kindRefusal kind.name (record label kind fields).shown)
  | _ => none

def faultItems? : List Value → Option Error
  | [] => none
  | item :: items => firstFault (fault? item) (faultItems? items)

def faultEntries? : List (Value × Value) → Option Error
  | [] => none
  | (_, value) :: entries => firstFault (fault? value) (faultEntries? entries)

/-- The keys of a dictionary are looked at before any of its values. -/
def faultKeys? : List (Value × Value) → Option Error
  | [] => none
  | (key, _) :: entries => if key.isText then faultKeys? entries else some (.keyNotText key.typeName)

end

/-! ### Copies -/

mutual

/-- A copy whose containers have labels of their own, with the next free label. -/
def copyFrom (next : Label) : Value → Value × Label
  | byteArray _ content => (byteArray next content, next + 1)
  | list _ items => let (items, after) := copyItems (next + 1) items; (list next items, after)
  | tuple _ items => let (items, after) := copyItems (next + 1) items; (tuple next items, after)
  | record _ .rendered fields => let (items, after) := copyItems (next + 1) fields; (tuple next items, after)
  | dict _ entries => let (entries, after) := copyEntries (next + 1) entries; (dict next entries, after)
  | value => (value, next)

def copyItems (next : Label) : List Value → List Value × Label
  | [] => ([], next)
  | item :: items =>
    let (item, next) := copyFrom next item
    let (items, next) := copyItems next items
    (item :: items, next)

def copyEntries (next : Label) : List (Value × Value) → List (Value × Value) × Label
  | [] => ([], next)
  | (key, value) :: entries =>
    let (value, next) := copyFrom next value
    let (entries, next) := copyEntries next entries
    ((key, value) :: entries, next)

end

def copy (value : Value) : Build Value :=
  modifyGet fun trace =>
    let (value, next) := copyFrom trace.nextLabel value
    (value, { trace with nextLabel := next })

/-- Copies of all values of a list, none sharing a container with another. -/
def copyAll (values : List Value) : Build (List Value) :=
  modifyGet fun trace =>
    let (values, next) := copyItems trace.nextLabel values
    (values, { trace with nextLabel := next })

def check (value : Value) : Build Value :=
  match value.fault? with
  | some error => throw error
  | none => value.copy

def checkAll (values : List Value) : Build (List Value) :=
  match faultItems? values with
  | some error => throw error
  | none => copyAll values

/-! ### Changes in place -/

mutual

def changed (label : Label) (change : Value → Value) : Value → Value
  | list l items => if l = label then change (list l items) else list l (changedItems label change items)
  | tuple l items => tuple l (changedItems label change items)
  | record l kind fields => record l kind (changedItems label change fields)
  | dict l entries => if l = label then change (dict l entries) else dict l (changedEntries label change entries)
  | byteArray l content => if l = label then change (byteArray l content) else byteArray l content
  | value => value

def changedItems (label : Label) (change : Value → Value) : List Value → List Value
  | [] => []
  | item :: items => changed label change item :: changedItems label change items

def changedEntries (label : Label) (change : Value → Value) : List (Value × Value) → List (Value × Value)
  | [] => []
  | (key, value) :: entries => (key, changed label change value) :: changedEntries label change entries

end

mutual

/-- Whether the object with a label is a value or lies somewhere in it. -/
def holds (label : Label) : Value → Bool
  | list l items | tuple l items | record l _ items => l == label || anyHolds label items
  | dict l entries => l == label || anyEntryHolds label entries
  | value => value.label? == some label

def anyHolds (label : Label) : List Value → Bool
  | [] => false
  | item :: items => holds label item || anyHolds label items

def anyEntryHolds (label : Label) : List (Value × Value) → Bool
  | [] => false
  | (key, value) :: entries => holds label key || holds label value || anyEntryHolds label entries

end

end SqlCompose.Value
