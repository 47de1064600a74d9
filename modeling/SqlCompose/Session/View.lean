import SqlCompose.Session.Building

/-!
# Views

What an observer sees of a value or an object. Values are seen as they are, and most records by their fields; of everything that can be built, the result of building it now is seen, or why it cannot be built. Looking changes nothing and logs nothing.
-/

namespace SqlCompose

inductive View where
  | value (value : Value)
  | list (items : List View)
  | tuple (items : List View)
  | dict (entries : List (View × View))
  | fields (fields : List (Text × View))
  | failure (error : Error)

namespace View

private def untupled : View → View
  | tuple items => list items
  | other => other

private def ofResult (view : Value → View) : Except Error Value → View
  | .ok result => view result
  | .error error => failure error

/-- A record, from its fields and from how these are seen. A type without arguments is seen as its name is. -/
def ofRecord (kind : RecordKind) (given : List Value) (seen : List View) : View :=
  match kind, given, seen with
  | .columnType, [_, .tuple _ []], name :: _ => name
  | .columnType, _, _ | .foreignKey, _, _ =>
    ofResult value (((Value.record 0 kind given).build?).getD (.error .attributeMissing))
  | _, _, _ => fields (kind.fieldNames.zip (seen.map untupled))

mutual

def ofValue (ofObject : Label → View) : Value → View
  | .object label _ => ofObject label
  | .list _ items => list (ofValues ofObject items)
  | .tuple _ items => tuple (ofValues ofObject items)
  | .dict _ entries => dict (ofEntries ofObject entries)
  | .record _ kind given => ofRecord kind given (ofValues ofObject given)
  | leaf => value leaf

def ofValues (ofObject : Label → View) : List Value → List View
  | [] => []
  | item :: items => ofValue ofObject item :: ofValues ofObject items

def ofEntries (ofObject : Label → View) : List (Value × Value) → List (View × View)
  | [] => []
  | (key, item) :: entries => (ofValue ofObject key, ofValue ofObject item) :: ofEntries ofObject entries

end

def ofPlain (value : Value) : View :=
  ofValue (fun _ => failure .attributeMissing) value

private def ofFlavor (flavor : Flavor) : View :=
  value (.entry (Keyword.entry flavor))

end View

namespace Session

def viewWithin (session : Session) : Nat → Label → View
  | 0, _ => .failure .endlessNesting
  | depth + 1, label =>
    let see := View.ofValue (session.viewWithin depth)
    match session.object? label with
    | none => .failure .attributeMissing
    | some (.queryMaker defaults) =>
      .fields [("flavor", .ofFlavor defaults.flavor), ("compact", see defaults.compact), ("deep", see defaults.deep)]
    | some (.tableMaker flavor) => .fields [("flavor", .ofFlavor flavor)]
    | some object => .ofResult see (Build.runFrom session.trace (session.build object)).1

def view (session : Session) (value : Value) : View :=
  View.ofValue (session.viewWithin session.depth) (session.current value)

/-- What an observer sees of something that can be built. -/
def stateView (session : Session) (value : Value) : Option View :=
  match value with
  | .object label _ =>
    match session.stored? label with
    | some (.queryMaker _) | some (.tableMaker _) | none => none
    | some _ => some (session.view value)
  | value => value.build?.map fun _ => session.view value

end Session

end SqlCompose
