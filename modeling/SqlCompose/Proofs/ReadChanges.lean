import Mathlib
import SqlCompose.Proofs.Custody
import SqlCompose.Proofs.Runs
import SqlCompose.Proofs.Steadiness
import SqlCompose.Session.ChainMethods
import SqlCompose.Session.CteMethods
import SqlCompose.Session.QueryMethods
import SqlCompose.Session.TableMethods

/-!
# Changes and what they are read from

A method that changes an object first reads its changes from the arguments, each when its turn comes. Reading leaves the session alone: it gives out labels, and that is all. The tables of methods are gone through once, for what is wanted of them further on: how many changes a method makes, and which of them set a flavor or the defaults of compaction.
-/

namespace SqlCompose

open Build

namespace Act

variable {α β : Type} {good : α → Prop} {final : β → Prop}

/-- The computation leaves every session as it is, and has results of some sort. -/
def Reads (action : Act α) (good : α → Prop) : Prop :=
  ∀ session, Leaves session action good

theorem Reads.imp {action : Act α} {weaker : α → Prop} (reads : Reads action good) (implied : ∀ value, good value → weaker value) :
    Reads action weaker :=
  fun session => (reads session).imp fun _ _ value holds => implied value holds

theorem reads_pure {value : α} (holds : good value) : Reads (pure value) good :=
  fun _ => Keeps.pure fun _ _ => holds

theorem reads_throw (error : Error) : Reads (throw error : Act α) good :=
  fun _ => Keeps.throw error

theorem Reads.bind {action : Act α} {next : α → Act β} (first : Reads action good) (second : ∀ value, good value → Reads (next value) final) :
    Reads (action >>= next) final :=
  fun session => (first session).bind fun _ _ value holds => second value holds session

theorem reads_after {outcome : Except Error α} {next : α → Act β} (second : ∀ value, outcome = .ok value → Reads (next value) final) :
    Reads ((liftM outcome : Act α) >>= next) final :=
  fun session => Keeps.after fun value done => second value done session

theorem reads_lift {outcome : Except Error α} (holds : ∀ value, outcome = .ok value → good value) : Reads (liftM outcome : Act α) good :=
  fun _ => Keeps.lift fun value done _ _ => holds value done

theorem reads_build (action : Build α) : Reads (build action) fun _ => True :=
  fun session => leaves_build session action

theorem reads_get : Reads (get : Act Session) fun _ => True :=
  fun session => (leaves_get session).imp fun _ _ _ _ => trivial

theorem reads_mapM {f : β → Act α} {items : List β} (each : ∀ item ∈ items, Reads (f item) good) :
    Reads (items.mapM f) fun values => ∀ value ∈ values, good value :=
  fun session => Keeps.mapM (fun _ _ _ _ holds => holds) fun item member => each item member session

/-- What is read has left a session that differs in its trace, and is of that sort. -/
theorem Reads.runs {action : Act α} (reads : Reads action good) {session after : Session} {outcome : Except Error α}
    (run : action.Runs session outcome after) :
    (∃ trace, after = { session with trace }) ∧ ∀ value, outcome = .ok value → good value := by
  obtain ⟨_, _, there, results⟩ := reads session () le_rfl session (since session)
  unfold Runs at run
  rw [run] at there results
  exact ⟨there, results⟩

/-! ### Reading arguments -/

theorem reads_object (label : Label) : Reads (object label) fun _ => True :=
  reads_get.bind fun session _ => by
    cases session.object? label with
    | some object => exact reads_pure trivial
    | none => exact reads_throw _

theorem reads_object? (value : Value) : Reads (object? value) fun _ => True := by
  unfold object?
  split
  · exact (reads_object _).bind fun _ _ => reads_pure trivial
  · exact reads_pure trivial

theorem reads_condition (value : Value) : Reads (condition value) fun _ => True :=
  (reads_object? value).bind fun found _ => by
    split
    · exact reads_pure trivial
    · exact reads_pure trivial

theorem reads_predicate (value : Value) (values : List Value) : Reads (predicate value values) fun _ => True :=
  (reads_condition value).bind fun _ _ => reads_build _

theorem reads_copy (query : Query) : Reads (copy query) (· = query.detached) :=
  reads_get.bind fun _ _ => reads_after fun _ _ => reads_pure rfl

theorem reads_query (value : Value) : Reads (query value) fun _ => True :=
  (reads_object? value).bind fun found _ => by
    split
    · exact (reads_copy _).imp fun _ _ => trivial
    · exact reads_throw _
    · exact reads_throw _
    · exact reads_pure trivial
    · split
      · exact reads_pure trivial
      · exact reads_throw _

theorem reads_optionalQuery (value : Value) : Reads (optionalQuery value) fun _ => True := by
  unfold optionalQuery
  split
  · exact reads_pure trivial
  · exact (reads_query _).bind fun _ _ => reads_pure trivial

theorem reads_columns (values : List Value) : Reads (columns values) fun _ => True := by
  refine Reads.bind (?_ : Reads _ fun groups => ∀ group ∈ groups, True) fun _ _ => reads_pure trivial
  refine reads_mapM fun value _ => ?_
  refine (reads_object? value).bind fun found _ => ?_
  split
  · exact reads_pure trivial
  · exact reads_lift fun _ _ => trivial

theorem reads_ctesIn (values : List Value) : Reads (ctesIn values) fun _ => True :=
  reads_get.bind fun _ _ => reads_pure trivial

theorem reads_attachedCtes (value : Value) : Reads (attachedCtes value) fun _ => True := by
  unfold attachedCtes
  split
  · exact reads_pure trivial
  · refine (reads_object? _).bind fun found _ => ?_
    split
    · exact reads_pure trivial
    · exact (reads_ctesIn _).bind fun _ _ => reads_after fun _ _ => reads_pure trivial

theorem reads_joinCondition (condition : Value) (values : List Value) : Reads (joinCondition condition values) fun _ => True := by
  unfold joinCondition
  split
  · exact reads_pure trivial
  · exact (reads_predicate _ _).bind fun _ _ => reads_pure trivial

theorem reads_tableJoin (arguments : Arguments) : Reads (tableJoin arguments) fun _ => True :=
  (reads_joinCondition _ _).bind fun _ _ => reads_after fun _ _ => reads_pure trivial

theorem reads_queryJoin (arguments : Arguments) : Reads (queryJoin arguments) fun _ => True :=
  (reads_joinCondition _ _).bind fun _ _ => reads_after fun _ _ => (reads_query _).bind fun _ _ => reads_pure trivial

end Act

/-! ### Methods that make changes -/

namespace Session

section Changes

variable {E : Type} {few : Prop} {good : E → Prop}

/-- The changes are read without effect and are of some sort; where few are made, it is one at most. -/
def ReadsChanges (few : Prop) (good : E → Prop) (changes : Changes E) : Prop :=
  Act.Reads changes.list fun list => (few → list.length ≤ 1) ∧ ∀ change ∈ list, Act.Reads change good

theorem reads_one {change : Act E} (reads : Act.Reads change good) : ReadsChanges few good (.one change) :=
  Act.reads_pure ⟨fun _ => le_rfl, List.forall_mem_singleton.mpr reads⟩

theorem reads_given {change : E} (holds : good change) : ReadsChanges few good (.given [change]) :=
  Act.reads_pure ⟨fun _ => le_rfl, List.forall_mem_singleton.mpr (Act.reads_pure holds)⟩

/-- Where more changes may be made, they are read one by one. -/
theorem reads_several {list : List (Act E)} (several : ¬ few) (each : ∀ change ∈ list, Act.Reads change good) :
    Act.Reads (pure list) fun list => (few → list.length ≤ 1) ∧ ∀ change ∈ list, Act.Reads change good :=
  Act.reads_pure ⟨fun single => absurd single several, each⟩

end Changes

theorem stored?_put (session : Session) (label other : Label) (object : Object) :
    (session.put label object).stored? other = if other = label then some object else session.stored? other :=
  lookup_putEntry label other object session.objects

/-! ### Calls -/

/-- A call fails before anything is done, for want of a method or of fitting arguments, or it is a call of a method in the table. -/
theorem runs_call {methods : Methods (Act Outcome)} {name : Text} {values : List Value} {named : List (Text × Value)}
    {session after : Session} {outcome : Except Error Outcome} (run : (methods.call name values named).Runs session outcome after) :
    ((∃ error, outcome = .error error) ∧ after = session ∧
        ∀ method, methods.lookup name = some method → ∀ arguments, method.signature.bind values named ≠ .ok arguments) ∨
      ∃ method arguments, methods.lookup name = some method ∧ method.signature.bind values named = .ok arguments ∧
        (method.run arguments).Runs session outcome after := by
  unfold Methods.call at run
  split at run
  · next missing =>
    obtain ⟨rfl, rfl⟩ := Act.runs_throw.mp run
    exact .inl ⟨⟨_, rfl⟩, rfl, fun method found => by rw [missing] at found; cases found⟩
  · next method found =>
    obtain ⟨arguments, between, bound, called⟩ | ⟨error, failed, rfl⟩ := run.bind
    · obtain ⟨fits, rfl⟩ := Act.runs_lift.mp bound
      exact .inr ⟨method, arguments, found, fits.symm, called⟩
    · obtain ⟨misfits, rfl⟩ := Act.runs_lift.mp failed
      refine .inl ⟨⟨error, rfl⟩, rfl, fun method' found' arguments fits => ?_⟩
      rw [found] at found'
      obtain rfl := Option.some.inj found'
      rw [fits] at misfits
      cases misfits

end Session

/-! ### Methods of statements -/

/-- The change leaves the flavor and the defaults of compaction as they are. -/
def Statement.Edit.keepsDefaults : Statement.Edit → Bool
  | .flavor _ | .compaction _ _ => false
  | _ => true

namespace Session

/-- The methods that make a change for each of several entries. -/
def severalEntries : List Text :=
  ["order_by", "add_order_by", "limit_and_offset", "add_many", "add_many_of_type"]

/-- The methods that set the flavor or the defaults of compaction. -/
def settingDefaults : List Text :=
  ["sql_flavor", "set_build_defaults"]

/-- What is wanted of the methods in a table: few changes except for certain methods, and no new defaults except by certain others. -/
def ReadsEdits (arguments : Arguments) (entry : Text × Method (Changes Statement.Edit)) : Prop :=
  ReadsChanges (entry.1 ∉ severalEntries) (fun edit => entry.1 ∉ settingDefaults → edit.keepsDefaults = true) (entry.2.run arguments)

section Tables

variable {name : Text} {arguments : Arguments}

private theorem fieldList_reads (raw : Bool) {edit : List Field → Statement.Edit} (keeps : ∀ list, (edit list).keepsDefaults = true) :
    ReadsEdits arguments (name, fieldList raw edit) :=
  reads_one (Act.reads_after fun list _ => Act.reads_pure fun _ => keeps list)

private theorem fieldSpread_reads (raw : Bool) {edit : List Field → Statement.Edit} (keeps : ∀ list, (edit list).keepsDefaults = true) :
    ReadsEdits arguments (name, fieldSpread raw edit) :=
  reads_given fun _ => keeps _

private theorem valueSpread_reads {edit : List Value → Statement.Edit} (keeps : ∀ list, (edit list).keepsDefaults = true) :
    ReadsEdits arguments (name, valueSpread edit) :=
  reads_given fun _ => keeps _

private theorem groupList_reads {edit : List Value → Statement.Edit} (keeps : ∀ list, (edit list).keepsDefaults = true) :
    ReadsEdits arguments (name, groupList edit) :=
  reads_one (Act.reads_after fun list _ => Act.reads_pure fun _ => keeps list)

private theorem switching_reads {edit : Value → Statement.Edit} (keeps : ∀ value, (edit value).keepsDefaults = true) :
    ReadsEdits arguments (name, switching edit) :=
  reads_given fun _ => keeps _

private theorem restricting_reads (connective : Connective) : ReadsEdits arguments (name, restricting connective) :=
  reads_one ((Act.reads_condition _).bind fun _ _ => Act.reads_pure fun _ => rfl)

private theorem columnAndValue_reads {edit : Value → Value → Statement.Edit} (keeps : ∀ column value, (edit column value).keepsDefaults = true) :
    ReadsEdits arguments (name, columnAndValue edit) :=
  reads_one ((Act.reads_build _).bind fun _ _ => Act.reads_pure fun _ => keeps _ _)

private theorem limitTo_reads (value : Value) : Act.Reads (limitTo value) fun edit => edit.keepsDefaults = true :=
  Act.reads_after fun _ _ => Act.reads_pure rfl

private theorem startAfter_reads (value : Value) : Act.Reads (startAfter value) fun edit => edit.keepsDefaults = true :=
  Act.reads_after fun _ _ => Act.reads_pure rfl

private theorem orderEntries_read : ∀ change ∈ orderEntries arguments, Act.Reads change fun edit => edit.keepsDefaults = true := by
  have entry (direction value : Value) : Act.Reads (do return .order (← OrderBy.ofEntry direction value))
      fun edit : Statement.Edit => edit.keepsDefaults = true := Act.reads_after fun _ _ => Act.reads_pure rfl
  unfold orderEntries
  dsimp only
  split
  · exact List.forall_mem_map.mpr fun value _ => entry _ value
  · exact List.forall_mem_singleton.mpr (entry _ _)

private theorem limitAndOffset_read : ∀ change ∈ limitAndOffset arguments, Act.Reads change fun edit => edit.keepsDefaults = true := by
  unfold limitAndOffset
  refine List.forall_mem_cons.mpr ⟨limitTo_reads _, ?_⟩
  split
  · exact List.forall_mem_nil _
  · exact List.forall_mem_singleton.mpr (startAfter_reads _)

theorem memberEdit_reads (query operator : Value) : Act.Reads (memberEdit query operator) fun edit => edit.keepsDefaults = true :=
  (Act.reads_query _).bind fun _ _ => Act.reads_after fun _ _ => Act.reads_pure rfl

theorem memberEntry_reads (value : Value) : Act.Reads (memberEntry value) fun edit => edit.keepsDefaults = true := by
  unfold memberEntry
  split
  · exact memberEdit_reads _ _
  · exact memberEdit_reads _ _
  · exact Act.reads_throw _
  · split
    · exact Act.reads_throw _
    · exact memberEdit_reads _ _
  · exact memberEdit_reads _ _

/-- Whatever the name, a change that keeps the defaults is read. -/
private theorem keeping {change : Act Statement.Edit} (reads : Act.Reads change fun edit => edit.keepsDefaults = true) :
    Act.Reads change fun edit => name ∉ settingDefaults → edit.keepsDefaults = true :=
  reads.imp fun _ keeps _ => keeps

variable (arguments)

theorem settingEdits_read : ∀ entry ∈ settingEdits, ReadsEdits arguments entry := by
  simp only [settingEdits, List.forall_mem_cons]
  refine ⟨?flavor, valueSpread_reads fun _ => rfl, valueSpread_reads fun _ => rfl, ?defaults, ?ctes, List.forall_mem_nil _⟩
  case flavor => exact reads_one (Act.reads_after fun _ _ => Act.reads_pure fun other => absurd (by decide) other)
  case defaults => exact reads_given fun other => absurd (by decide) other
  case ctes => exact reads_one ((Act.reads_attachedCtes _).bind fun _ _ => Act.reads_pure fun _ => rfl)

theorem clauseEdits_read : ∀ entry ∈ clauseEdits, ReadsEdits arguments entry := by
  simp only [clauseEdits, List.forall_mem_cons]
  refine ⟨reads_given fun _ => rfl, reads_given fun _ => rfl, reads_given fun _ => rfl, restricting_reads .and, restricting_reads .or,
    reads_given fun _ => rfl, ?having, fieldList_reads false fun _ => rfl, fieldList_reads true fun _ => rfl,
    fieldSpread_reads false fun _ => rfl, fieldSpread_reads true fun _ => rfl, switching_reads fun _ => rfl, ?join, ?subquery,
    groupList_reads fun _ => rfl, switching_reads fun _ => rfl, ?order, reads_given fun _ => rfl,
    reads_one (keeping (limitTo_reads _)), reads_one (keeping (startAfter_reads _)), ?both, reads_given fun _ => rfl,
    reads_given fun _ => rfl, List.forall_mem_nil _⟩
  case having => exact reads_one ((Act.reads_condition _).bind fun _ _ => Act.reads_pure fun _ => rfl)
  case join => exact reads_one ((Act.reads_tableJoin _).bind fun _ _ => Act.reads_pure fun _ => rfl)
  case subquery => exact reads_one ((Act.reads_queryJoin _).bind fun _ _ => Act.reads_pure fun _ => rfl)
  case order => exact reads_several (by decide) fun change member => keeping (orderEntries_read change member)
  case both => exact reads_several (by decide) fun change member => keeping (limitAndOffset_read change member)

theorem writingEdits_read : ∀ entry ∈ writingEdits, ReadsEdits arguments entry := by
  simp only [writingEdits, List.forall_mem_cons]
  refine ⟨?rows, columnAndValue_reads fun _ _ => rfl, valueSpread_reads fun _ => rfl, ?source, ?assignments,
    columnAndValue_reads fun _ _ => rfl, reads_given fun _ => rfl, reads_given fun _ => rfl, fieldList_reads false fun _ => rfl,
    fieldSpread_reads false fun _ => rfl, fieldList_reads true fun _ => rfl, fieldSpread_reads true fun _ => rfl,
    reads_given fun _ => rfl, List.forall_mem_nil _⟩
  case rows => exact reads_one ((Act.reads_build _).bind fun _ _ => Act.reads_pure fun _ => rfl)
  case source => exact reads_one ((Act.reads_query _).bind fun _ _ => Act.reads_pure fun _ => rfl)
  case assignments => exact reads_one ((Act.reads_build _).bind fun _ _ => Act.reads_pure fun _ => rfl)

theorem compoundEdits_read : ∀ entry ∈ compoundEdits, ReadsEdits arguments entry := by
  simp only [compoundEdits, List.forall_mem_cons]
  refine ⟨reads_one (keeping (memberEdit_reads _ _)), ?many, ?typed, groupList_reads fun _ => rfl, groupList_reads fun _ => rfl, ?order,
    ?moreOrder, List.forall_mem_nil _⟩
  case many =>
    exact Act.reads_after fun items _ => reads_several (by decide) (List.forall_mem_map.mpr fun item _ => keeping (memberEntry_reads item))
  case typed =>
    exact Act.reads_after fun items _ => reads_several (by decide) (List.forall_mem_map.mpr fun item _ => keeping (memberEdit_reads item _))
  case order =>
    exact reads_several (by decide) (List.forall_mem_cons.mpr ⟨Act.reads_pure fun _ => rfl,
      fun change member => keeping (orderEntries_read change member)⟩)
  case moreOrder => exact reads_several (by decide) fun change member => keeping (orderEntries_read change member)

end Tables

/-! ### Methods of chains, expressions, columns and statements on tables -/

section Others

variable {few : Prop}

private theorem reads_oneLift {E : Type} {edit : Except Error E} : ReadsChanges few (fun _ => True) (.one (liftM edit : Act E)) :=
  reads_one (Act.reads_lift fun _ _ => trivial)

/-- A search for every word of a text makes a change for each word; all other methods of a chain make one. -/
theorem chainEdits_read (arguments : Arguments) : ∀ entry ∈ chainEdits,
    ReadsChanges (entry.1 ≠ "search.word_by_word") (fun _ => True) (entry.2.run arguments) := by
  have linked {few : Prop} (word value : Value) (values : List Value) : ReadsChanges few (fun _ => True)
      (.one do return Chain.Edit.link word (← Act.condition value) values) :=
    reads_one ((Act.reads_condition _).bind fun _ _ => Act.reads_pure trivial)
  have existing {few : Prop} (negated : Bool) (word value : Value) (values : List Value) : ReadsChanges few (fun _ => True)
      (.one do return Chain.Edit.existence negated word (← Act.condition value) values) :=
    reads_one ((Act.reads_condition _).bind fun _ _ => Act.reads_pure trivial)
  simp only [chainEdits, List.forall_mem_cons]
  refine ⟨linked _ _ _, linked _ _ _, linked _ _ _, reads_oneLift, reads_oneLift, reads_oneLift, reads_oneLift, reads_oneLift,
    reads_oneLift, reads_oneLift, reads_oneLift, reads_oneLift, reads_oneLift, existing _ _ _ _, existing _ _ _ _, reads_given trivial,
    reads_oneLift, ?words, reads_oneLift, reads_one (Act.reads_build _), List.forall_mem_nil _⟩
  case words =>
    exact Act.reads_after fun edits _ => reads_several (fun other => other rfl)
      (List.forall_mem_map.mpr fun edit _ => Act.reads_lift fun _ _ => trivial)

theorem cteSetEdits_read (arguments : Arguments) : ∀ entry ∈ cteSetEdits,
    ReadsChanges (entry.1 ≠ "add") (fun _ => True) (entry.2.run arguments) := by
  simp only [cteSetEdits, List.forall_mem_cons]
  refine ⟨?several, ?single, List.forall_mem_nil _⟩
  case several =>
    exact (Act.reads_ctesIn _).bind fun entries _ => reads_several (fun other => other rfl)
      (List.forall_mem_map.mpr fun entry _ => Act.reads_lift fun _ _ => trivial)
  case single => exact reads_one ((Act.reads_optionalQuery _).bind fun _ _ => Act.reads_pure trivial)

theorem columnEdits_read (arguments : Arguments) : ∀ entry ∈ columnEdits, ReadsChanges few (fun _ => True) (entry.2.run arguments) := by
  simp only [columnEdits, List.forall_mem_cons]
  refine ⟨reads_oneLift, reads_oneLift, reads_given trivial, reads_given trivial, reads_given trivial, reads_given trivial, reads_oneLift,
    reads_given trivial, reads_oneLift, ?references, List.forall_mem_nil _⟩
  case references => exact reads_one (Act.reads_after fun _ _ => Act.reads_after fun _ _ => Act.reads_pure trivial)

theorem tableEdits_read (arguments : Arguments) : ∀ entry ∈ tableEdits, ReadsChanges few (fun _ => True) (entry.2.run arguments) := by
  have columns (edit : List Value → TableStatement.Edit Value) : ReadsChanges few (fun _ => True) ((columnSpread edit).run arguments) :=
    reads_one ((Act.reads_columns _).bind fun _ _ => Act.reads_pure trivial)
  simp only [tableEdits, List.forall_mem_cons]
  refine ⟨reads_given trivial, ?flavor, reads_given trivial, reads_given trivial, reads_given trivial, reads_given trivial, columns _,
    columns _, columns _, columns _, reads_given trivial, ?alterations, reads_given trivial, reads_given trivial, List.forall_mem_nil _⟩
  case flavor => exact reads_one (Act.reads_after fun _ _ => Act.reads_pure trivial)
  case alterations => exact reads_one (Act.reads_after fun _ _ => Act.reads_pure trivial)

end Others

end Session

end SqlCompose
