import SqlCompose.Session.Building
import SqlCompose.Session.Method

/-!
# Methods of chains and records

Chains change by their methods. Records do not, so every method of a record gives something new.
-/

namespace SqlCompose.Session

def connective : List (Text × Value) :=
  [("kind", .text "AND")]

def onColumn (edit : Arguments → Value → Value → Except Error Chain.Edit) (arguments : Arguments) :
    Changes Chain.Edit :=
  .one (liftM (edit arguments (arguments.get "column") (arguments.get "kind")))

def membership (negated : Bool) : Method (Changes Chain.Edit) :=
  ⟨.plain ["column", "values"] connective, onColumn fun arguments column word => do
    Chain.Edit.membership negated column (← (arguments.get "values").items) word⟩

def range (negated : Bool) : Method (Changes Chain.Edit) :=
  ⟨.plain ["column", "start", "end"] connective, onColumn fun arguments column word =>
    Chain.Edit.range negated column (arguments.get "start") (arguments.get "end") word⟩

def absence (negated : Bool) : Method (Changes Chain.Edit) :=
  ⟨.plain ["column"] connective, onColumn fun _ column word => Chain.Edit.absence negated column word⟩

def pattern (negated anyCase : Bool) : Method (Changes Chain.Edit) :=
  ⟨.plain ["column", "pattern"] connective, onColumn fun arguments column word =>
    Chain.Edit.pattern negated anyCase column (arguments.get "pattern") word⟩

def linking (word : Text) : Method (Changes Chain.Edit) :=
  ⟨.spread ["condition"], fun arguments => .one do
    return .link (.text word) (← Act.condition (arguments.get "condition")) arguments.rest⟩

def existence (negated : Bool) : Method (Changes Chain.Edit) :=
  ⟨⟨["subquery"], [], true, connective⟩, fun arguments => .one do
    return .existence negated (arguments.get "kind") (← Act.condition (arguments.get "subquery")) arguments.rest⟩

def searching (further : List (Text × Value)) (edits : Arguments → Value → Value → Value → Changes Chain.Edit) :
    Method (Changes Chain.Edit) :=
  ⟨.plain ["field", "query"] (further ++ connective), fun arguments =>
    edits arguments (arguments.get "field") (arguments.get "query") (arguments.get "kind")⟩

/-- The link for one of several statements, as it is when its turn comes; there is none for an empty one. -/
def statementLink? (word value : Value) : Act (Option Chain.Edit) := do
  match ← Act.object? value with
  | some (_, .chain c) => return if c.isEmpty then none else some (.link word (.chain c) [])
  | some _ => throw .attributeMissing
  | none =>
    match BuiltQuery.ofValue? value with
    | some query => return if query.text.truthy then some (.link word (Act.recordCondition value) []) else none
    | none => throw .attributeMissing

def chainEdits : Methods (Changes Chain.Edit) := [
  ("and_", linking "AND"),
  ("or_", linking "OR"),
  ("raw", ⟨⟨["template"], [], true, connective⟩, fun arguments => .one do
    return .link (arguments.get "kind") (← Act.condition (arguments.get "template")) arguments.rest⟩),
  ("in_", membership false),
  ("not_in", membership true),
  ("between", range false),
  ("not_between", range true),
  ("is_null", absence false),
  ("is_not_null", absence true),
  ("like", pattern false false),
  ("ilike", pattern false true),
  ("not_like", pattern true false),
  ("not_ilike", pattern true true),
  ("exists", existence false),
  ("not_exists", existence true),
  ("reset", ⟨.none, fun _ => .given [.clear]⟩),
  ("search.fulltext", searching [("case_insensitive", .bool true)] fun arguments field query word =>
    .one (liftM (Chain.Edit.containing (arguments.switch "case_insensitive") field query word))),
  ("search.word_by_word", searching [("case_insensitive", .bool true)] fun arguments field query word => ⟨do
    let edits ← Chain.Edit.containingWords (arguments.switch "case_insensitive") field query word
    return edits.map fun edit => (liftM edit : Act Chain.Edit)⟩),
  ("search.fulltext_tsvector", searching [("config", .text "simple")] fun arguments field query word =>
    .one (liftM (Chain.Edit.matchingWords field query (arguments.get "config") word))),
  ("search.fuzzy_trigram", searching [("similarity_threshold", .float "0.3")] fun arguments field query word =>
    .one (Act.build (Chain.Edit.similar field query (arguments.get "similarity_threshold") word)))]

def editChain (label : Label) (edit : Chain.Edit) : Act Unit := do
  match ← Act.object label with
  | .chain c => Act.put label (.chain (← Act.build (edit.apply c)))
  | _ => throw .attributeMissing

def joining (label : Label) : Method (Act Outcome) :=
  ⟨.plain ["statements"] connective, fun arguments => do
    (← (arguments.get "statements").items).forM fun value => do
      match ← statementLink? (arguments.get "kind") value with
      | none => return ()
      | some edit => editChain label edit
    return .itself⟩

def chainResults (label : Label) (chain : Chain) : Methods (Act Outcome) := [
  ("join_statements", joining label),
  ("build", ⟨.plain [] [("start_index", .int 1), ("with_where", .bool true), ("new_line", .bool true)],
    fun arguments => Act.queryResult
      (chain.build (arguments.get "start_index") (arguments.switch "with_where") (arguments.switch "new_line"))⟩),
  ("render", ⟨.plain [] [("start_index", .int 1), ("new_line", .bool true)], fun arguments =>
    Act.builtResult (chain.renderFrom (arguments.get "start_index") (arguments.switch "new_line"))⟩),
  ("to_predicate", ⟨.plain [] [("new_line", .bool true)], fun arguments =>
    Act.predicateResult (chain.toPredicate (arguments.switch "new_line"))⟩),
  ("clone", ⟨.none, fun _ => Act.newResult (.chain chain)⟩)]

def chainMethods (label : Label) (chain : Chain) : Methods (Act Outcome) :=
  chainEdits.changing (editChain label) ++ chainResults label chain

/-! ### Records -/

/-- Two conditions joined. The other one is read before the connective. -/
def combined (predicate : Predicate) (word other : Value) : Act Outcome := do
  let other ← Act.predicate other []
  let connective ← Connective.ofValue word
  Act.predicateResult (predicate.combine connective other)

def combining (word : Text) (predicate : Predicate) : Method (Act Outcome) :=
  ⟨.plain ["other"] [], fun arguments => combined predicate (.text word) (arguments.get "other")⟩

def predicateMethods (predicate : Predicate) : Methods (Act Outcome) := [
  ("combine", ⟨.plain ["other", "kind"] [], fun arguments =>
    combined predicate (arguments.get "kind") (arguments.get "other")⟩),
  ("&", combining "AND" predicate),
  ("|", combining "OR" predicate),
  ("render", ⟨.plain [] [("start_index", .int 1)], fun arguments =>
    Act.builtResult (predicate.renderFrom (arguments.get "start_index"))⟩)]

def recordMethods (value : Value) : Methods (Act Outcome) :=
  match Predicate.ofValue? value, BuiltQuery.ofValue? value, value.build? with
  | some predicate, _, _ => predicateMethods predicate
  | none, some query, _ => [("with_prefix", ⟨.plain ["prefix"] [], fun arguments =>
      Act.queryResult (query.prepend (arguments.get "prefix"))⟩)]
  | none, none, some result => [("build", ⟨.none, fun _ => Act.builtResult (liftM result)⟩)]
  | none, none, none => []

end SqlCompose.Session
