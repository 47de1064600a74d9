import SqlCompose.Predicate

/-!
# Condition chains

A chain is a sequence of predicates, each in parentheses, joined by `AND` and `OR` in the order in which they were added; the connective of the first is not written. A chain can stand as one predicate.
-/

namespace SqlCompose

structure Chain where
  links : List (Connective × Predicate) := []
  deriving Repr

namespace Chain

def isEmpty (chain : Chain) : Bool :=
  chain.links.isEmpty

def values (chain : Chain) : List Value :=
  chain.links.flatMap (·.2.values)

def append (chain : Chain) (connective : Connective) (predicate : Predicate) : Chain :=
  ⟨chain.links ++ [(connective, predicate)]⟩

def laterLink (link : Connective × Predicate) : Text :=
  Keyword.word link.1 ++ " (" ++ link.2.text.printed ++ ")"

def linkTexts : List (Connective × Predicate) → List Text
  | [] => []
  | first :: rest => ("(" ++ first.2.text.printed ++ ")") :: rest.map laterLink

/-- The text of the chain with markers, one link on a line or all on one line. -/
def text (chain : Chain) (newLine : Bool) : Text :=
  Text.join (if newLine then "\n " else " ") (linkTexts chain.links)

def toPredicate (chain : Chain) (newLine : Bool) : Build Predicate :=
  Predicate.make (.plain (chain.text newLine)) chain.values

/-- The chain numbered from a start; an empty chain has no text. -/
def render (chain : Chain) (start : Int) (newLine : Bool) : Build Numbered :=
  if chain.isEmpty then pure ⟨[], [], start⟩
  else do (← chain.toPredicate newLine).render start

end Chain

end SqlCompose
