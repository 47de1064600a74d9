import SqlCompose.Numbering
import SqlCompose.Session.State

/-!
# Building in a session

What the objects of a session build. Most of them are built by themselves; a statement on a table is built from the columns that it refers to, and what stands among its columns without being one contributes what it builds to a definition, and nothing else.
-/

namespace SqlCompose

/-- What a record builds, if it is one of those that are built: a column type or a foreign key. -/
def Value.build? (value : Value) : Option (Except Error Value) :=
  match ColumnType.ofValue? value, ForeignKey.ofValue? value with
  | some type, _ => some type.build
  | none, some key => some (key.build.map .text)
  | none, none => none

namespace Session

/-- What a value that is no column contributes in the place of one. -/
def foreignPart (define : Build Value) : ColumnPart where
  define := do return ← (← define).printed
  add _ _ := throw .attributeMissing
  alter _ _ _ := throw .attributeMissing

/-- What a value contributes to a statement on a table, when objects are built in some way. -/
def columnPart (session : Session) (build : Object → Build Value) (value : Value) : ColumnPart :=
  match value with
  | .object label _ =>
    match session.object? label with
    | some (.column c) => c.toPart
    | some object => foreignPart (build object)
    | none => foreignPart (throw .attributeMissing)
  | value => foreignPart (liftM (value.build?.getD (.error .attributeMissing)))

def buildWithin (session : Session) : Nat → Object → Build Value
  | 0, _ => throw .endlessNesting
  | depth + 1, object =>
    match object with
    | .chain c => do (← c.build (.int 1) true true).toValue
    | .query q => do (← q.build none none).toValue
    | .cte c => do (← (c.map Query.toChild).build).toValue
    | .ctes cs => do (← Cte.buildAll (cs.map (Cte.map Query.toChild))).toValue
    | .column c => return .text (← c.build false)
    | .table t => (t.mapColumns (session.columnPart (session.buildWithin depth))).build
    | .queryMaker _ | .tableMaker _ => throw .attributeMissing

def build (session : Session) (object : Object) : Build Value :=
  session.buildWithin session.depth object

end Session

end SqlCompose
