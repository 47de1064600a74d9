import Mathlib
import SqlCompose.Proofs.CustodyTables
import SqlCompose.Proofs.StatementRecords

/-!
# Reports of failures

Whatever is built, all records are of level debug, but for one: when something cannot be built for want of a part, the last record is of level error and has the text of the failure. Of the passages of statements this follows from what each of them logs. Statements on tables build columns, and whatever else stands among their columns, and the same holds of them.
-/

namespace SqlCompose

open Outcome Build

/-! ### Lists of records -/

/-- The loggers of everything that is built. -/
def buildLoggers : List Text :=
  [Clause.queryLogger, Cte.logger, Column.logger]

/-- A record of a step, not of a failure. -/
structure LogRecord.IsStep (record : LogRecord) : Prop where
  logger : record.logger ∈ buildLoggers
  level : record.level = .debug

/-- All records are of steps, but for the report of a failure for want of a part, which comes last. -/
inductive Reported {α : Type} : Except Error α → List LogRecord → Prop
  | finished {result : α} {records : List LogRecord} (steps : ∀ record ∈ records, record.IsStep) : Reported (.ok result) records
  | failed {error : Error} {logger : Text} {records : List LogRecord} (known : logger ∈ buildLoggers)
    (steps : ∀ record ∈ records, record.IsStep) : Reported (.error error) (records ++ error.report logger)

namespace Reported

variable {α β : Type} {records : List LogRecord}

theorem behind {outcome : Except Error α} {earlier : List LogRecord} (steps : ∀ record ∈ earlier, record.IsStep)
    (reported : Reported outcome records) : Reported outcome (earlier ++ records) := by
  cases reported with
  | finished further => exact .finished (List.forall_mem_append.mpr ⟨steps, further⟩)
  | failed known further =>
    rw [← List.append_assoc]
    exact .failed known (List.forall_mem_append.mpr ⟨steps, further⟩)

theorem steps {result : α} (reported : Reported (.ok result) records) : ∀ record ∈ records, record.IsStep := by
  cases reported with
  | finished steps => exact steps

theorem error {error : Error} (reported : Reported (.error error : Except Error α) records) :
    Reported (.error error : Except Error β) records := by
  cases reported with
  | failed known steps => exact .failed known steps

end Reported

namespace Passage

theorem logger_mem (passage : Passage) : passage.logger ∈ buildLoggers := by
  cases passage <;> simp [logger, buildLoggers]

theorem isStep_of_announcement {passage : Passage} {result : BuiltQuery} : ∀ record ∈ passage.announcement result, record.IsStep := by
  cases passage with
  | query query compact deep =>
    intro record member
    obtain ⟨kind, -, rfl⟩ := List.mem_map.mp member
    exact ⟨by simp [buildLoggers], rfl⟩
  | cte cte => simp [announcement]
  | ctes ctes =>
    rw [announcement]
    split
    · simp
    · simp only [List.mem_singleton, forall_eq]
      exact ⟨by simp [buildLoggers], rfl⟩

mutual

theorem Logs.reported {passage : Passage} {outcome : Except Error BuiltQuery} {records : List LogRecord} :
    passage.Logs outcome records → Reported outcome records
  | .finished _ inside => .finished (List.forall_mem_append.mpr ⟨(inside.reported passage.logger_mem).steps, isStep_of_announcement⟩)
  | .failed _ inside => (inside.reported passage.logger_mem).error

theorem Passes.reported {logger : Text} {passages : List Passage} {outcome : Except Error Unit} {records : List LogRecord} :
    Passes logger passages outcome records → logger ∈ buildLoggers → Reported outcome records
  | .done, _ => .finished (by simp)
  | .passage logs passes, known => .behind logs.reported.steps (passes.reported known)
  | .passageFails logs, _ => logs.reported.error
  | .fails, known => @Reported.failed _ _ _ [] known (by simp)

end

end Passage

/-! ### Computations that report -/

namespace Build

variable {α β : Type}

/-- The computation adds records to those of a trace, and reports how it fails. -/
def Reporting (action : Build α) : Prop :=
  ∀ trace, ∃ records, (runFrom trace action).2.latest = records.reverse ++ trace.latest ∧
    Reported (runFrom trace action).1 records

theorem Wordless.reporting {action : Build α} (wordless : action.Wordless) : Reporting action := by
  intro trace
  obtain ⟨same, ordinary⟩ := wordless trace
  refine ⟨[], same, ?_⟩
  cases outcome : (runFrom trace action).1 with
  | ok value => exact .finished (by simp)
  | error error =>
    have none : error.report Column.logger = [] := by
      rw [Error.report, ordinary error outcome]
      rfl
    exact none ▸ @Reported.failed _ error Column.logger [] (by simp [buildLoggers]) (by simp)

theorem reporting_lift {outcome : Except Error α} (ordinary : Ordinary outcome) : Reporting (liftM outcome : Build α) :=
  (wordless_lift ordinary).reporting

theorem reporting_pure (value : α) : Reporting (pure value) :=
  (wordless_pure value).reporting

theorem Reporting.bind {first : Build α} {next : α → Build β} (reporting : Reporting first)
    (later : ∀ value, Reporting (next value)) : Reporting (first >>= next) := by
  intro trace
  obtain ⟨records, added, reported⟩ := reporting trace
  rw [runFrom_bind]
  cases run : runFrom trace first with
  | mk outcome between =>
    rw [run] at added reported
    cases outcome with
    | error error => exact ⟨records, added, reported.error⟩
    | ok value =>
      obtain ⟨more, added', reported'⟩ := later value between
      refine ⟨records ++ more, ?_, .behind reported.steps reported'⟩
      rw [List.reverse_append, List.append_assoc, ← added]
      exact added'

theorem reporting_mapM {f : β → Build α} {items : List β} (each : ∀ item ∈ items, Reporting (f item)) :
    Reporting (items.mapM f) := by
  induction items with
  | nil => exact reporting_pure []
  | cons item items ih =>
    rw [List.forall_mem_cons] at each
    rw [List.mapM_cons]
    exact each.1.bind fun _ => (ih each.2).bind fun _ => reporting_pure _

theorem reporting_failFor {logger : Text} (known : logger ∈ buildLoggers) (omission : Omission) :
    Reporting (failFor logger omission : Build α) :=
  fun _ => ⟨[⟨logger, .error, omission.message⟩], rfl, @Reported.failed _ (.incomplete omission) _ [] known (by simp)⟩

theorem reporting_require (present : Bool) {logger : Text} (known : logger ∈ buildLoggers) (omission : Omission) :
    Reporting (require present logger omission) := by
  unfold require
  split
  · exact reporting_pure ()
  · exact reporting_failFor known omission

theorem reporting_log {logger : Text} (known : logger ∈ buildLoggers) (message : Text) : Reporting (log logger .debug message) :=
  fun _ => ⟨[⟨logger, .debug, message⟩], rfl, .finished (by simpa using ⟨known, rfl⟩)⟩

end Build

theorem Passage.reporting (passage : Passage) : passage.build.Reporting := by
  intro trace
  obtain ⟨records, added, logs⟩ := passage.tells trace
  exact ⟨records, added, logs.reported⟩

/-! ### Columns -/

theorem ForeignKey.ordinary_build (key : ForeignKey) : Ordinary key.build :=
  key.table.ordinary_printed.bind fun _ => key.column.ordinary_printed.bind fun _ => ordinary_ok _

theorem ColumnType.ordinary_build (type : ColumnType) : Ordinary type.build := by
  unfold build
  split
  · exact ordinary_ok _
  · refine type.name.ordinary_printed.bind fun _ => (ordinary_mapM (fun n => ?_) _).bind fun _ => ordinary_ok _
    exact (Numeral.written_write n).ordinary

theorem ordinary_renderType (type : Value) : Ordinary (renderType type) := by
  unfold renderType
  split
  · exact ColumnType.ordinary_build _
  · exact ordinary_ok _
  · exact ordinary_ok _

namespace Column

theorem logger_mem : logger ∈ buildLoggers := by
  simp [buildLoggers]

variable (column : Column)

private theorem ordinary_part (opening closing : Text) (value : Value) :
    Ordinary (match value with
      | .null => .ok []
      | value => value.printed.map fun text => [opening ++ text ++ closing]) := by
  split
  · exact ordinary_ok _
  · exact (Value.ordinary_printed _).map _

private theorem ordinary_key (opening : Text) (key : Option ForeignKey) :
    Ordinary (match key with
      | none => .ok []
      | some key => key.build.map fun text => [opening ++ text]) := by
  split
  · exact ordinary_ok _
  · exact (ForeignKey.ordinary_build _).map _

theorem ordinary_constraints : Ordinary column.constraints :=
  (ordinary_part "DEFAULT " [] column.default).bind fun _ => (ordinary_part "CHECK (" ")" column.condition).bind fun _ =>
    (ordinary_key [] column.foreignKey).bind fun _ => ordinary_ok _

theorem ordinary_setDefault (table name : Text) : Ordinary (column.setDefault table name) :=
  ordinary_part _ [] column.default

theorem ordinary_constraintStatements (table tableName name : Text) : Ordinary (column.constraintStatements table tableName name) :=
  (ordinary_part _ ")" column.condition).bind fun _ => (ordinary_key _ column.foreignKey).bind fun _ => ordinary_ok _

theorem ordinary_rename (table name : Text) (previous : Value) : Ordinary (column.rename table name previous) := by
  unfold rename
  split
  · split
    · exact ordinary_error rfl
    · exact ordinary_ok _
    · exact previous.ordinary_printed.bind fun _ => ordinary_ok _
  · exact ordinary_ok _

theorem ordinary_alterDefault (table name : Text) : Ordinary (column.alterDefault table name) := by
  unfold alterDefault
  split
  · exact ordinary_ok _
  · exact column.ordinary_setDefault table name

theorem reporting_requireNamed : column.requireNamed.Reporting := by
  unfold requireNamed
  split
  · exact reporting_pure ()
  · exact reporting_failFor logger_mem _
  · exact reporting_failFor logger_mem _
  · exact (reporting_lift column.name.ordinary_printed).bind fun _ => reporting_failFor logger_mem _

theorem reporting_build (bare : Bool) : (column.build bare).Reporting := by
  refine column.reporting_requireNamed.bind fun _ => (reporting_lift (ordinary_renderType _)).bind fun type => ?_
  have written : ∀ constraints : List Text, (do
      return Text.join " " ((← column.name.asText) :: (← type.asText) :: constraints) : Build Text).Reporting := fun _ =>
    (reporting_lift column.name.ordinary_asText).bind fun _ => (reporting_lift type.ordinary_asText).bind fun _ => reporting_pure _
  split
  · exact written []
  · exact (reporting_lift column.ordinary_constraints).bind written

theorem reporting_buildToAdd (table tableName : Value) : (column.buildToAdd table tableName).Reporting := by
  refine column.reporting_requireNamed.bind fun _ => (reporting_lift table.ordinary_printed).bind fun _ => ?_
  refine (column.reporting_build true).bind fun _ => (reporting_lift column.name.ordinary_printed).bind fun _ => ?_
  refine (reporting_lift (column.ordinary_setDefault _ _)).bind fun _ => (reporting_lift tableName.ordinary_printed).bind fun _ => ?_
  exact (reporting_lift (column.ordinary_constraintStatements _ _ _)).bind fun _ => reporting_pure _

theorem reporting_buildToAlter (table tableName previous : Value) : (column.buildToAlter table tableName previous).Reporting := by
  refine column.reporting_requireNamed.bind fun _ => (reporting_lift table.ordinary_printed).bind fun _ => ?_
  refine (reporting_lift column.name.ordinary_printed).bind fun _ => ?_
  refine (reporting_lift (column.ordinary_rename _ _ _)).bind fun _ => (reporting_lift (ordinary_renderType _)).bind fun type => ?_
  refine (reporting_lift type.ordinary_printed).bind fun _ => (reporting_lift (column.ordinary_alterDefault _ _)).bind fun _ => ?_
  refine (reporting_lift tableName.ordinary_printed).bind fun _ => ?_
  exact (reporting_lift (column.ordinary_constraintStatements _ _ _)).bind fun _ => reporting_pure _

end Column

/-! ### Statements on tables -/

/-- Whatever is built from the part reports how it fails. -/
structure ColumnPart.Reporting (part : ColumnPart) : Prop where
  define : part.define.Reporting
  add : ∀ table tableName, (part.add table tableName).Reporting
  alter : ∀ table tableName previous, (part.alter table tableName previous).Reporting

theorem Column.reporting_toPart (column : Column) : column.toPart.Reporting where
  define := column.reporting_build false
  add _ _ := column.reporting_buildToAdd _ _
  alter _ _ _ := column.reporting_buildToAlter _ _ _

namespace TableTarget

variable (target : TableTarget)

theorem ordinary_quoted : Ordinary target.quoted :=
  Identifier.ordinary_quoteTableValue _ _

theorem ordinary_finish (text : Text) : Ordinary (target.finish text) :=
  Identifier.ordinary_substituteSchemas _ _

end TableTarget

namespace TableStatement

private theorem reporting_create {create : CreateTable ColumnPart} (parts : ∀ part ∈ create.columns, part.Reporting) :
    create.build.Reporting := by
  refine (reporting_require _ Column.logger_mem _).bind fun _ => (reporting_require _ Column.logger_mem _).bind fun _ => ?_
  refine (reporting_mapM fun part member => (parts part member).define).bind fun _ => ?_
  refine (reporting_lift create.target.ordinary_quoted).bind fun _ => ?_
  refine (reporting_lift (create.target.ordinary_finish _)).bind fun _ => ?_
  refine (reporting_lift create.target.name.ordinary_printed).bind fun _ => ?_
  exact (reporting_log Column.logger_mem _).bind fun _ => reporting_pure _

private theorem reporting_alter {alter : AlterTable ColumnPart} (parts : ∀ part ∈ (TableStatement.alter alter).columns, part.Reporting) :
    alter.build.Reporting := by
  obtain ⟨added, altered⟩ := List.forall_mem_append.mp parts
  have alterations : ∀ table tableName, (alter.alterationStatements table tableName).Reporting := by
    intro table tableName
    refine (reporting_mapM fun entry member => ?_).bind fun _ => reporting_pure _
    exact reporting_mapM fun part inside => (altered part (List.mem_flatMap.mpr ⟨entry, member, inside⟩)).alter _ _ _
  refine (reporting_require _ Column.logger_mem _).bind fun _ => ?_
  refine (reporting_lift alter.target.ordinary_quoted).bind fun table => ?_
  refine (reporting_lift alter.target.name.ordinary_asText).bind fun name => ?_
  refine (reporting_mapM fun part member => (added part member).add _ _).bind fun _ => (alterations _ _).bind fun _ => ?_
  refine (reporting_mapM fun name _ => (reporting_lift name.ordinary_printed).bind fun _ => reporting_pure _).bind fun _ => ?_
  refine (reporting_require _ Column.logger_mem _).bind fun _ => (reporting_lift alter.target.name.ordinary_printed).bind fun _ => ?_
  exact (reporting_log Column.logger_mem _).bind fun _ => reporting_lift (ordinary_mapM alter.target.ordinary_finish _)

private theorem reporting_drop (drop : DropTable) : drop.build.Reporting := by
  refine (reporting_require _ Column.logger_mem _).bind fun _ => (reporting_lift drop.target.ordinary_quoted).bind fun _ => ?_
  exact reporting_lift (drop.target.ordinary_finish _)

theorem reporting_build {statement : TableStatement ColumnPart} (parts : ∀ part ∈ statement.columns, part.Reporting) :
    statement.build.Reporting := by
  cases statement with
  | create create => exact (reporting_create parts).bind fun _ => reporting_pure _
  | alter alter => exact (reporting_alter parts).bind fun _ => wordless_freshLabel.reporting.bind fun _ => reporting_pure _
  | drop drop => exact (reporting_drop drop).bind fun _ => reporting_pure _

end TableStatement

/-! ### Objects -/

namespace Session

theorem reporting_foreignPart {define : Build Value} (reporting : define.Reporting) : (foreignPart define).Reporting where
  define := reporting.bind fun given => reporting_lift given.ordinary_printed
  add _ _ := (wordless_throw rfl).reporting
  alter _ _ _ := (wordless_throw rfl).reporting

theorem ordinary_buildOfValue (value : Value) : Ordinary (value.build?.getD (.error .attributeMissing)) := by
  unfold Value.build?
  split
  · exact ColumnType.ordinary_build _
  · exact (ForeignKey.ordinary_build _).map _
  · exact ordinary_error rfl

theorem reporting_columnPart (session : Session) {build : Object → Build Value} (reporting : ∀ object, (build object).Reporting)
    (value : Value) : (session.columnPart build value).Reporting := by
  unfold columnPart
  split
  · split
    · exact Column.reporting_toPart _
    · exact reporting_foreignPart (reporting _)
    · exact reporting_foreignPart (wordless_throw rfl).reporting
  · exact reporting_foreignPart (reporting_lift (ordinary_buildOfValue _))

theorem reporting_toValue (built : BuiltQuery) : built.toValue.Reporting :=
  (wordless_freshLabel.bind fun _ => wordless_freshLabel.bind fun _ => wordless_pure _).reporting

theorem reporting_chain (chain : Chain) (start : Int) (withWhere newLine : Bool) :
    (chain.build (.int start) withWhere newLine).Reporting := by
  unfold Chain.build
  split
  · exact (wordless_make _ _).reporting
  · refine (wordless_toPredicate chain newLine).reporting.bind fun predicate => ?_
    refine (reporting_lift ?_).bind fun _ => (wordless_make _ _).reporting
    rw [bindFrom_int]
    exact ((Numeral.ordinary_check _).bind fun _ => ordinary_ok _).map _

/-- Whatever an object builds, it reports how that fails. -/
theorem reporting_buildWithin (session : Session) (depth : Nat) (object : Object) :
    (session.buildWithin depth object).Reporting := by
  induction depth generalizing object with
  | zero => exact (wordless_throw rfl).reporting
  | succ depth ih =>
    cases object with
    | chain c => exact (reporting_chain c 1 true true).bind reporting_toValue
    | query q => exact (Passage.query q none none).reporting.bind reporting_toValue
    | cte c => exact (Passage.cte c).reporting.bind reporting_toValue
    | ctes cs => exact (Passage.ctes cs).reporting.bind reporting_toValue
    | column c => exact (c.reporting_build false).bind fun _ => reporting_pure _
    | table t =>
      refine TableStatement.reporting_build ?_
      rw [TableStatement.columns_mapColumns]
      exact List.forall_mem_map.mpr fun value _ => session.reporting_columnPart ih value
    | queryMaker _ => exact (wordless_throw rfl).reporting
    | tableMaker _ => exact (wordless_throw rfl).reporting

/-- Building a statement or a common table expression logs one record of level debug for each statement and each set of expressions that is finished, behind those of the passages inside it and in the order of the text. If it fails for want of a part, one record of level error with the text of the failure comes last, and no other end leaves one. So it is with statements on tables and columns, too. -/
theorem records_of_builds (session : Session) :
    (∀ (passage : Passage) (trace : Trace), ∃ records,
      (runFrom trace passage.build).2.latest = records.reverse ++ trace.latest ∧
        passage.Logs (runFrom trace passage.build).1 records ∧ Reported (runFrom trace passage.build).1 records) ∧
    (∀ object : Object, (session.build object).Reporting) ∧
    (∀ (column : Column) (bare : Bool), (column.build bare).Reporting) ∧
    (∀ (column : Column) (table tableName : Value), (column.buildToAdd table tableName).Reporting) ∧
      ∀ (column : Column) (table tableName previous : Value), (column.buildToAlter table tableName previous).Reporting := by
  refine ⟨fun passage trace => ?_, session.reporting_buildWithin session.depth, Column.reporting_build, Column.reporting_buildToAdd,
    Column.reporting_buildToAlter⟩
  obtain ⟨records, added, logs⟩ := passage.tells trace
  exact ⟨records, added, logs, logs.reported⟩

/-- Of two expressions the second has a statement without a table. The first statement is announced; the failure is reported once, however deep it lies. -/
example :
    let broken : Cte Query := { name := .text "b", query := some (.of (.select {})) }
    let whole : Cte Query := { name := .text "a", query := some (.of (.select { table := .text "t" })) }
    (runFrom {} (Passage.query (.of (.select { table := .text "t", ctes := some [whole, broken] })) none none).build).2.latest.map
      (·.level) = [.error, .debug] := by
  decide +kernel

end Session

end SqlCompose
