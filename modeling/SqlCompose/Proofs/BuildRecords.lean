import Mathlib
import SqlCompose.Proofs.OrdinaryFailures
import SqlCompose.Proofs.StatementParts

/-!
# What building logs

Statements are built inside each other, and so are common table expressions and sets of them. Each of these passages builds its parts first, in the order of the text. When a passage is finished it announces so with one record of level debug, behind the records of its parts. A failure stops everything: one for want of a part is reported with its text, by the passage that wants it, and no passage around it adds anything; any other failure leaves no record of its own.

`Passage.Logs` says this passage by passage, `Passage.logs_build` that every build goes this way, and `Passage.Logs.reports` what it comes to for the list of records as a whole.
-/

namespace SqlCompose

open Outcome

/-! ### Building without records -/

namespace Build

variable {α β : Type}

/-- The computation logs nothing, and does not fail for want of a part. -/
def Wordless (action : Build α) : Prop :=
  ∀ trace, (runFrom trace action).2.latest = trace.latest ∧ Ordinary (runFrom trace action).1

theorem wordless_pure (value : α) : Wordless (pure value) :=
  fun _ => ⟨rfl, ordinary_ok value⟩

theorem wordless_throw {error : Error} (other : error.isOmission = false) : Wordless (throw error : Build α) :=
  fun _ => ⟨rfl, ordinary_error other⟩

theorem wordless_lift {outcome : Except Error α} (ordinary : Ordinary outcome) : Wordless (liftM outcome) := by
  cases outcome with
  | ok value => exact wordless_pure value
  | error error => exact wordless_throw (ordinary error rfl)

theorem Wordless.bind {first : Build α} {next : α → Build β} (wordless : Wordless first) (further : ∀ value, Wordless (next value)) :
    Wordless (first >>= next) := by
  intro trace
  obtain ⟨same, ordinary⟩ := wordless trace
  rw [runFrom_bind]
  cases run : runFrom trace first with
  | mk outcome between =>
    rw [run] at same ordinary
    cases outcome with
    | error error => exact ⟨same, ordinary_error (ordinary error rfl)⟩
    | ok value => exact ⟨(further value between).1.trans same, (further value between).2⟩

theorem wordless_freshLabel : Wordless freshLabel :=
  fun _ => ⟨rfl, ordinary_ok _⟩

theorem wordless_copyAll (values : List Value) : Wordless (Value.copyAll values) :=
  fun _ => ⟨rfl, ordinary_ok _⟩

theorem wordless_checkAll (values : List Value) : Wordless (Value.checkAll values) := by
  unfold Value.checkAll
  split
  · next fault found => exact wordless_throw (Value.ordinary_faultItems values fault found)
  · exact wordless_copyAll values

theorem wordless_make (text : Text) (values : List Value) : Wordless (BuiltQuery.make text values) :=
  (wordless_copyAll values).bind fun _ => wordless_pure _

theorem wordless_toPredicate (chain : Chain) (newLine : Bool) : Wordless (chain.toPredicate newLine) := by
  refine (wordless_checkAll _).bind fun values => ?_
  dsimp only
  split
  · exact wordless_pure _
  · exact wordless_throw rfl

theorem wordless_renderPredicate (predicate : Predicate) (start : Int) : Wordless (liftM (predicate.render start)) := by
  rcases predicate.render_cases start with done | failed
  · rw [done]
    exact wordless_pure _
  · rw [failed]
    exact wordless_throw rfl

theorem wordless_renderChain (chain : Chain) (start : Int) (newLine : Bool) : Wordless (chain.render start newLine) := by
  unfold Chain.render
  split
  · exact wordless_pure _
  · exact (wordless_toPredicate chain newLine).bind fun predicate => wordless_renderPredicate predicate start

theorem wordless_restriction (restriction : Restriction) (start : Int) : Wordless (restriction.render start) := by
  cases restriction with
  | chain held => exact wordless_renderChain held.item start true
  | predicate p => exact wordless_renderPredicate p start
  | unusable _ _ => exact wordless_throw rfl

end Build

/-! ### Passages -/

/-- What is built on its own, by itself or inside something else: a statement, finished as asked for, a common table expression, or a set of them. -/
inductive Passage where
  | query (query : Query) (compact deep : Option Bool)
  | cte (cte : Cte Query)
  | ctes (ctes : List (Cte Query))

namespace Passage

/-- A statement inside another passage; there it is built without compaction. -/
def inner (query : Query) : Passage :=
  .query query (some false) none

def build : Passage → Build BuiltQuery
  | query q compact deep => q.build compact deep
  | cte c => (c.map Query.toChild).build
  | ctes cs => Cte.buildAll (cs.map (Cte.map Query.toChild))

def logger : Passage → Text
  | query _ _ _ => Clause.queryLogger
  | cte _ | ctes _ => Cte.logger

/-- The clause in front of a statement, if it has one. -/
def ofWith (ctes : Option (List (Cte Query))) : List Passage :=
  ctes.toList.map .ctes

def ofJoin (join : Join Query) : List Passage :=
  join.child?.toList.map inner

/-- The passages inside a statement, in the order of the text. Behind a row of values no other statement is written. -/
def ofStatement : Statement Query → List Passage
  | .select s => ofWith s.ctes ++ s.joins.flatMap ofJoin
  | .compound s => ofWith s.ctes ++ s.members.map fun member => inner member.query
  | .insert s => ofWith s.ctes ++ if s.rows.isEmpty then s.source.toList.map inner else []
  | .update s => ofWith s.ctes ++ s.joins.flatMap ofJoin
  | .delete s => ofWith s.ctes
  | .built _ | .unbuildable => []

def parts : Passage → List Passage
  | query q _ _ => ofStatement q.statement
  | cte c => c.query.toList.map inner
  | ctes cs => cs.map cte

/-- What a passage logs when it is finished: what it is, and how many values it has. A query that was finished before and an expression on its own log nothing, and neither does a set of none. -/
def announcement (result : BuiltQuery) : Passage → List LogRecord
  | query q _ _ => q.statement.kind?.toList.map fun kind =>
      ⟨Clause.queryLogger, .debug,
        "Built " ++ Keyword.word kind ++ " query with " ++ Text.ofNat result.values.length ++ " parameter(s)"⟩
  | cte _ => []
  | ctes cs =>
    if cs.isEmpty then []
    else [⟨Cte.logger, .debug, "Built WITH clause of " ++ Text.ofNat cs.length ++ " CTE(s) with " ++
      Text.ofNat result.values.length ++ " parameter(s)"⟩]

/-- That building the passage can end in this way. -/
def Ends (passage : Passage) (outcome : Except Error BuiltQuery) : Prop :=
  ∃ trace after, Build.runFrom trace passage.build = (outcome, after)

end Passage

/-- What is logged of a failure: its text, if it is for want of a part. -/
def Error.report (logger : Text) (error : Error) : List LogRecord :=
  if error.isOmission then [⟨logger, .error, error.message⟩] else []

mutual

/-- What building a passage logs, in order, when it ends in a certain way. -/
inductive Passage.Logs : Passage → Except Error BuiltQuery → List LogRecord → Prop
  | finished {passage : Passage} {result : BuiltQuery} {records : List LogRecord} (ends : passage.Ends (.ok result))
    (inside : Passage.Passes passage.logger passage.parts (.ok ()) records) :
    Logs passage (.ok result) (records ++ passage.announcement result)
  | failed {passage : Passage} {error : Error} {records : List LogRecord} (ends : passage.Ends (.error error))
    (inside : Passage.Passes passage.logger passage.parts (.error error) records) :
    Logs passage (.error error) records

/-- What is logged while passages are built one after another for a passage around them with some logger. That passage can itself fail on the way. -/
inductive Passage.Passes : Text → List Passage → Except Error Unit → List LogRecord → Prop
  | done {logger : Text} : Passes logger [] (.ok ()) []
  | passage {logger : Text} {first : Passage} {rest : List Passage} {result : BuiltQuery} {outcome : Except Error Unit}
    {records further : List LogRecord} (logs : Passage.Logs first (.ok result) records)
    (passes : Passes logger rest outcome further) : Passes logger (first :: rest) outcome (records ++ further)
  | passageFails {logger : Text} {first : Passage} {rest : List Passage} {error : Error} {records : List LogRecord}
    (logs : Passage.Logs first (.error error) records) : Passes logger (first :: rest) (.error error) records
  | fails {logger : Text} {passages : List Passage} {error : Error} : Passes logger passages (.error error) (error.report logger)

end

namespace Passage

variable {α β : Type} {logger : Text} {passages further : List Passage}

theorem Passes.append {outcome : Except Error Unit} {records later : List LogRecord} (passes : Passes logger passages (.ok ()) records)
    (more : Passes logger further outcome later) : Passes logger (passages ++ further) outcome (records ++ later) := by
  induction passages generalizing records with
  | nil =>
    cases passes
    exact more
  | cons passage passages ih =>
    cases passes with
    | passage logs passes =>
      rw [List.append_assoc]
      exact .passage logs (ih passes)

/-- What stops on the way has not come to what would follow. -/
theorem Passes.stopped {error : Error} {records : List LogRecord} (passes : Passes logger passages (.error error) records)
    (further : List Passage) : Passes logger (passages ++ further) (.error error) records := by
  induction passages generalizing records with
  | nil =>
    cases passes
    exact .fails
  | cons passage passages ih =>
    cases passes with
    | passage logs passes => exact .passage logs (ih passes)
    | passageFails logs => exact .passageFails logs
    | fails => exact .fails

/-! ### Computations that build passages -/

/-- The computation adds records to those of a trace: such as belong to building the passages. -/
def Narrates (logger : Text) (passages : List Passage) (action : Build α) : Prop :=
  ∀ trace, ∃ records, (Build.runFrom trace action).2.latest = records.reverse ++ trace.latest ∧
    Passes logger passages ((Build.runFrom trace action).1.map fun _ => ()) records

/-- The computation adds the records of building the passages and, if it succeeds, the announcement of the passage around them. -/
def Completes (passage : Passage) (passages : List Passage) (action : Build BuiltQuery) : Prop :=
  ∀ trace, ∃ records, (Build.runFrom trace action).2.latest = records.reverse ++ trace.latest ∧
    match (Build.runFrom trace action).1 with
    | .ok result => ∃ inside, Passes passage.logger passages (.ok ()) inside ∧ records = inside ++ passage.announcement result
    | .error error => Passes passage.logger passages (.error error) records

/-- Building the passage logs what it should, from every trace. -/
def Tells (passage : Passage) : Prop :=
  ∀ trace, ∃ records, (Build.runFrom trace passage.build).2.latest = records.reverse ++ trace.latest ∧
    passage.Logs (Build.runFrom trace passage.build).1 records

theorem Completes.tells {passage : Passage} (completes : Completes passage passage.parts passage.build) : passage.Tells := by
  intro trace
  obtain ⟨records, added, passes⟩ := completes trace
  refine ⟨records, added, ?_⟩
  cases run : Build.runFrom trace passage.build with
  | mk outcome after =>
    rw [run] at passes
    cases outcome with
    | error error => exact .failed ⟨trace, after, run⟩ passes
    | ok result =>
      obtain ⟨inside, passes, rfl⟩ := passes
      exact .finished ⟨trace, after, run⟩ passes

theorem Tells.narrates {passage : Passage} (tells : passage.Tells) : Narrates logger [passage] passage.build := by
  intro trace
  obtain ⟨records, added, logs⟩ := tells trace
  refine ⟨records, added, ?_⟩
  cases outcome : (Build.runFrom trace passage.build).1 with
  | error error => exact .passageFails (outcome ▸ logs)
  | ok result =>
    rw [← List.append_nil records]
    exact .passage (outcome ▸ logs) .done

theorem narrates_of_wordless {action : Build α} (wordless : action.Wordless) : Narrates logger [] action := by
  intro trace
  obtain ⟨same, ordinary⟩ := wordless trace
  refine ⟨[], same, ?_⟩
  cases outcome : (Build.runFrom trace action).1 with
  | ok value => exact .done
  | error error =>
    have none : error.report logger = [] := by
      rw [Error.report, ordinary error outcome]
      rfl
    exact none ▸ .fails

theorem narrates_failFor (omission : Omission) : Narrates logger passages (Build.failFor logger omission : Build α) :=
  fun _ => ⟨[⟨logger, .error, omission.message⟩], rfl, .fails⟩

theorem narrates_require (present : Bool) (omission : Omission) : Narrates logger [] (Build.require present logger omission) := by
  unfold Build.require
  split
  · exact narrates_of_wordless (Build.wordless_pure ())
  · exact narrates_failFor omission

theorem Narrates.bind {first : Build α} {next : α → Build β} (narrates : Narrates logger passages first)
    (later : ∀ value, Narrates logger further (next value)) : Narrates logger (passages ++ further) (first >>= next) := by
  intro trace
  obtain ⟨records, added, passes⟩ := narrates trace
  rw [Build.runFrom_bind]
  cases run : Build.runFrom trace first with
  | mk outcome between =>
    rw [run] at added passes
    cases outcome with
    | error error => exact ⟨records, added, passes.stopped further⟩
    | ok value =>
      obtain ⟨more, added', passes'⟩ := later value between
      refine ⟨records ++ more, ?_, passes.append passes'⟩
      rw [List.reverse_append, List.append_assoc, ← added]
      exact added'

theorem Narrates.before {first : Build α} {next : α → Build β} (narrates : Narrates logger [] first)
    (later : ∀ value, Narrates logger passages (next value)) : Narrates logger passages (first >>= next) :=
  narrates.bind later

theorem Narrates.andThen {first : Build α} {next : α → Build β} (narrates : Narrates logger passages first)
    (wordless : ∀ value, (next value).Wordless) : Narrates logger passages (first >>= next) := by
  rw [← List.append_nil passages]
  exact narrates.bind fun value => narrates_of_wordless (wordless value)

theorem Narrates.completes {passage : Passage} {first : Build α} {next : α → Build BuiltQuery}
    (narrates : Narrates passage.logger passages first)
    (later : ∀ value, first.Yields value → Completes passage further (next value)) :
    Completes passage (passages ++ further) (first >>= next) := by
  intro trace
  obtain ⟨records, added, passes⟩ := narrates trace
  rw [Build.runFrom_bind]
  cases run : Build.runFrom trace first with
  | mk outcome between =>
    rw [run] at added passes
    cases outcome with
    | error error => exact ⟨records, added, passes.stopped further⟩
    | ok value =>
      obtain ⟨more, added', ends⟩ := later value ⟨trace, between, run⟩ between
      refine ⟨records ++ more, ?_, ?_⟩
      · rw [List.reverse_append, List.append_assoc, ← added]
        exact added'
      · dsimp only
        cases outcome : (Build.runFrom between (next value)).1 with
        | error error =>
          rw [outcome] at ends
          exact passes.append ends
        | ok result =>
          rw [outcome] at ends
          obtain ⟨inside, passes', rfl⟩ := ends
          exact ⟨records ++ inside, passes.append passes', (List.append_assoc _ _ _).symm⟩

theorem completes_after {passage : Passage} {first : Build α} {next : α → Build BuiltQuery} (narrates : Narrates passage.logger [] first)
    (later : ∀ value, first.Yields value → Completes passage passages (next value)) : Completes passage passages (first >>= next) :=
  narrates.completes later

theorem completes_lift {passage : Passage} {outcome : Except Error α} {next : α → Build BuiltQuery} (ordinary : Ordinary outcome)
    (later : ∀ value, outcome = .ok value → Completes passage passages (next value)) :
    Completes passage passages ((liftM outcome : Build α) >>= next) :=
  completes_after (narrates_of_wordless (Build.wordless_lift ordinary)) fun value given => later value (Build.yields_lift.mp given)

theorem narrates_mapM {f : β → Build α} {inside : β → List Passage} {items : List β}
    (each : ∀ item ∈ items, Narrates logger (inside item) (f item)) : Narrates logger (items.flatMap inside) (items.mapM f) := by
  induction items with
  | nil => exact narrates_of_wordless (Build.wordless_pure [])
  | cons item items ih =>
    rw [List.forall_mem_cons] at each
    rw [List.mapM_cons, List.flatMap_cons]
    exact each.1.bind fun _ => (ih each.2).andThen fun _ => Build.wordless_pure _

/-- The announcement, and then the result over copies of its values. -/
theorem completes_announced {passage : Passage} (text : Value) (values : List Value) (message : Text)
    (announced : ∀ result : BuiltQuery, result.values.length = values.length →
      passage.announcement result = [⟨passage.logger, .debug, message⟩]) :
    Completes passage [] (do Build.log passage.logger .debug message; BuiltQuery.ofParts text values) := by
  intro trace
  refine ⟨[⟨passage.logger, .debug, message⟩], rfl, [], .done, ?_⟩
  exact (announced _ (Value.length_copyItems trace.nextLabel values)).symm

end Passage

end SqlCompose
