import SqlCompose.Statement.Clause

/-!
# Joins

A join adds a table, or a statement in parentheses under an alias, with a condition or without.
-/

namespace SqlCompose

inductive JoinSource (Q : Type) where
  | table (reference name : Value)
  | subquery (query : Q) (name : Value)
  deriving Repr

structure Join (Q : Type) where
  kind : JoinKind
  source : JoinSource Q
  condition : Option Predicate
  deriving Repr

namespace Join

variable {Q R : Type}

def map (f : Q → R) (join : Join Q) : Join R :=
  { join with source := match join.source with
    | .table reference name => .table reference name
    | .subquery query name => .subquery (f query) name }

/-- What is joined. A table may go without an alias; the alias of a statement is always written. -/
def renderSource (flavor : Flavor) (source : JoinSource Child) (start : Int) : Build Numbered := do
  match source with
  | .table reference name =>
    let table ← Identifier.quoteTableValue flavor reference
    return ⟨table ++ (← behind " " name), [], start⟩
  | .subquery query name =>
    let built ← query.build
    let inner ← (← built.toFragment).renumber start
    return ⟨"(\n" ++ Text.indent 1 inner.text.content ++ "\n) " ++ (← name.printed), inner.values, inner.next⟩

def render (flavor : Flavor) (join : Join Child) : Clause := fun start => do
  let source ← renderSource flavor join.source start
  let head := Keyword.word join.kind ++ " JOIN " ++ source.text
  match join.condition with
  | none => return some { source with text := head }
  | some predicate =>
    let condition ← predicate.render source.next
    return some ⟨head ++ "\n ON " ++ condition.text, source.values ++ condition.values, condition.next⟩

end Join

end SqlCompose
