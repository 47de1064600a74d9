import Mathlib
import SqlCompose.Proofs.Custody
import SqlCompose.Proofs.PartDefaults
import SqlCompose.Proofs.ReadChanges
import SqlCompose.Session.Creation

/-!
# Defaults from a maker

A maker gives each new statement its flavor and its defaults of compaction. Every method of a statement keeps them, except the two that set others; this goes for methods that clear the statement and for those that fail. What comes of a statement as a new one, a copy or a compound of it and another, has the same flavor and defaults again.

`Session.Derived` says which statements of a session come from a maker in this way.
-/

namespace SqlCompose

open Build

/-! ### Statements with the defaults of a maker -/

/-- The query has the flavor and the defaults that a maker gives. -/
def Query.HasDefaults (maker : Defaults) (query : Query) : Prop :=
  ∃ settings, query.statement.settings? = some settings ∧ settings.flavor = maker.flavor ∧ settings.compact = maker.compact ∧
    settings.deep = maker.deep

/-- The defaults contain no objects, as Booleans contain none; no session changes how they look. -/
def Defaults.Fixed (maker : Defaults) : Prop :=
  (∀ faceOf, maker.compact.refaced faceOf = maker.compact) ∧ ∀ faceOf, maker.deep.refaced faceOf = maker.deep

namespace Query.HasDefaults

variable {maker : Defaults} {query : Query}

theorem detached (has : query.HasDefaults maker) : query.detached.HasDefaults maker := by
  obtain ⟨settings, given, same⟩ := has
  refine ⟨settings, ?_, same⟩
  obtain ⟨statement⟩ := query
  cases statement <;> exact given

theorem united (has : query.HasDefaults maker) (operator : SetOperator) (other : Query) (name : Value) :
    (query.united operator other name).HasDefaults maker := by
  obtain ⟨settings, given, same⟩ := has
  refine ⟨{ settings with schemas := [] }, ?_, same⟩
  rw [Query.united, given]
  rfl

end Query.HasDefaults

theorem Statement.settings?_of_changeFilter {statement after : Statement Query} {change : Restriction → Build Restriction}
    (done : (statement.changeFilter change).Yields after) : after.settings? = statement.settings? := by
  cases statement with
  | built _ | insert _ | unbuildable => exact absurd done not_yields_throw
  | select s | compound s | update s | delete s =>
    obtain ⟨filter, _, same⟩ := Yields.bind done
    obtain rfl := yields_pure.mp same
    rfl

theorem Statement.settings?_of_changeHaving {statement after : Statement Query} {change : Restriction → Build Restriction}
    (done : (statement.changeHaving change).Yields after) : after.settings? = statement.settings? := by
  cases statement with
  | built _ | insert _ | update _ | delete _ | unbuildable => exact absurd done not_yields_throw
  | select s | compound s =>
    obtain ⟨filter, _, same⟩ := Yields.bind done
    obtain rfl := yields_pure.mp same
    rfl

/-- A change that is not made to set defaults leaves them, whatever else it clears. -/
theorem Statement.Edit.hasDefaults_of_apply {maker : Defaults} {edit : Statement.Edit} (keeps : edit.keepsDefaults = true)
    {before after : Statement Query} (has : (Query.of before).HasDefaults maker) (done : (edit.apply before).Yields after) :
    (Query.of after).HasDefaults maker := by
  obtain ⟨settings, given, same⟩ := has
  change before.settings? = some settings at given
  cases edit with
  | flavor _ | compaction _ _ => cases keeps
  | «where» _ _ _ => exact ⟨settings, (settings?_of_changeFilter done).trans given, same⟩
  | having _ _ => exact ⟨settings, (settings?_of_changeHaving done).trans given, same⟩
  | filter conditions =>
    change (before.changeFilter fun _ => pure conditions).Yields after at done
    exact ⟨settings, (settings?_of_changeFilter done).trans given, same⟩
  | groupFilter conditions =>
    change (before.changeHaving fun _ => pure conditions).Yields after at done
    exact ⟨settings, (settings?_of_changeHaving done).trans given, same⟩
  | _ =>
    cases before
    all_goals first
      | exact absurd done not_yields_throw
      | obtain rfl := yields_pure.mp done
        obtain rfl := Option.some.inj given
        exact ⟨_, rfl, same⟩

/-! ### Statements of a session -/

namespace Session

open Act

/-- What the session has under a label, if it is a query, has the defaults of the maker. -/
def Defaulted (maker : Defaults) (label : Label) (session : Session) : Prop :=
  ∀ query, session.stored? label = some (.query query) → query.HasDefaults maker

section Keeping

variable {maker : Defaults} {label : Label}

/-- The defaults of the object under the label are kept, whether the computation succeeds or fails. -/
abbrev KeepsDefaults (maker : Defaults) (label : Label) {α : Type} (action : Act α) : Prop :=
  Keeps (fun (_ : Unit) => Defaulted maker label) () action fun _ _ => True

theorem keepsDefaults_of_reads {α : Type} {action : Act α} {good : α → Prop} (reads : Reads action good) :
    Keeps (fun (_ : Unit) => Defaulted maker label) () action fun _ => good := by
  intro before _ session has
  obtain ⟨_, _, ⟨trace, there⟩, results⟩ := reads session () le_rfl session (since session)
  refine ⟨(), le_rfl, ?_, results⟩
  rw [there]
  exact has

theorem keepsDefaults_put (other : Label) {object : Object} (has : ∀ query, object = .query query → query.HasDefaults maker) :
    KeepsDefaults maker label (Act.put other object) := by
  intro before _ session here
  refine ⟨(), le_rfl, fun query stored => ?_, fun _ _ => trivial⟩
  change (session.put other object).stored? label = _ at stored
  rw [stored?_put] at stored
  split at stored
  · exact has query (Option.some.inj stored)
  · exact here query stored

/-- A query as the session shows it has the defaults that it was stored with, if no session changes how these look. -/
theorem Defaulted.shown (fixed : maker.Fixed) {session : Session} (has : Defaulted maker label session) {query : Query}
    (shown : session.object? label = some (.query query)) : query.HasDefaults maker := by
  obtain ⟨stored, given, same⟩ := Option.map_eq_some_iff.mp shown
  cases stored with
  | query q =>
    obtain ⟨settings, found, flavor, compact, deep⟩ := has q given
    obtain rfl := Object.query.inj same
    refine ⟨settings.mapValues session.current, ?_, flavor, ?_, ?_⟩
    · obtain ⟨statement⟩ := q
      change (Query.mapValues session.current (.of (statement.resolved session.chain?))).statement.settings? = _
      rw [Query.mapValues, Query.fold_of]
      cases statement with
      | built _ | unbuildable => cases found
      | select s | compound s | insert s | update s | delete s =>
        obtain rfl := Option.some.inj found
        rfl
    · rw [Settings.mapValues, compact]
      exact fixed.1 _
    · rw [Settings.mapValues, deep]
      exact fixed.2 _
  | _ => cases same

theorem keepsDefaults_object (fixed : maker.Fixed) : Keeps (fun (_ : Unit) => Defaulted maker label) () (Act.object label)
    fun _ object => ∀ query, object = .query query → query.HasDefaults maker := by
  intro before _ session has
  obtain ⟨outcome, after, run⟩ := (Act.object label).exists_runs session
  obtain ⟨rfl, found⟩ := run.object
  unfold Runs at run
  rw [run]
  refine ⟨(), le_rfl, has, ?_⟩
  rintro object rfl query rfl
  exact has.shown fixed (found _ rfl)

theorem keepsDefaults_editStatement (fixed : maker.Fixed) {edit : Statement.Edit} (keeps : edit.keepsDefaults = true) :
    KeepsDefaults maker label (editStatement label edit) := by
  refine (keepsDefaults_object fixed).bind fun _ _ object has => ?_
  split
  · next statement =>
    have changes : Keeps (fun (_ : Unit) => Defaulted maker label) () (Act.build (edit.apply statement))
        fun _ changed => (Query.of changed).HasDefaults maker := by
      intro _ _ session here
      refine ⟨(), le_rfl, here, fun changed done => ?_⟩
      exact Statement.Edit.hasDefaults_of_apply keeps (has _ rfl) ⟨session.trace, _, Prod.ext done rfl⟩
    refine changes.bind fun _ _ changed kept => ?_
    refine (keepsDefaults_put label (by rintro _ ⟨⟩; exact kept)).bind fun _ _ _ _ => ?_
    split
    · exact keepsDefaults_put _ (by rintro _ ⟨⟩)
    · exact Keeps.pure fun _ _ => trivial
  · exact Keeps.throw _

theorem keepsDefaults_newResult {object : Object} (has : ∀ query, object = .query query → query.HasDefaults maker) :
    KeepsDefaults maker label (Act.newResult object) := by
  have new : KeepsDefaults maker label (Act.new object) :=
    (keepsDefaults_of_reads (reads_build _)).bind fun _ _ other _ => (keepsDefaults_put other has).bind fun _ _ _ _ =>
      Keeps.pure fun _ _ => trivial
  exact new.bind fun _ _ _ _ => Keeps.pure fun _ _ => trivial

theorem keepsDefaults_queryResult (action : Build BuiltQuery) : KeepsDefaults maker label (Act.queryResult action) :=
  (keepsDefaults_of_reads (reads_build _)).bind fun _ _ _ _ => Keeps.pure fun _ _ => trivial

theorem keepsDefaults_makeAll (fixed : maker.Fixed) {few : Prop} {changes : Changes Statement.Edit}
    (reads : ReadsChanges few (fun edit => edit.keepsDefaults = true) changes) :
    KeepsDefaults maker label (changes.makeAll (editStatement label)) :=
  (keepsDefaults_of_reads reads).bind fun _ _ _ each => Keeps.forM fun change member =>
    (keepsDefaults_of_reads (each.2 change member)).bind fun _ _ _ keeps => keepsDefaults_editStatement fixed keeps

end Keeping

/-! ### Results -/

section Results

variable {maker : Defaults}

/-- If the computation gives an object, and this is a query, it has the defaults of the maker. -/
def Brings (maker : Defaults) (action : Act Outcome) : Prop :=
  ∀ session after label face, action.Runs session (.ok (.value (.object label face))) after → Defaulted maker label after

theorem brings_bind {α : Type} {first : Act α} {next : α → Act Outcome} (brings : ∀ value, Brings maker (next value)) :
    Brings maker (first >>= next) := by
  intro session after label face run
  obtain ⟨value, between, _, run⟩ := run.bind_ok
  exact brings value between after label face run

theorem brings_copy {query : Query} {next : Query → Act Outcome} (brings : Brings maker (next query.detached)) :
    Brings maker (Act.copy query >>= next) := by
  intro session after label face run
  obtain ⟨copied, between, copying, run⟩ := run.bind_ok
  obtain rfl := ((reads_copy query).runs copying).2 copied rfl
  exact brings between after label face run

theorem brings_throw (error : Error) : Brings maker (throw error) := by
  intro session after label face run
  cases (runs_throw.mp run).1

theorem brings_itself : Brings maker (pure .itself) := by
  intro session after label face run
  cases (runs_pure.mp run).1

theorem brings_newResult {object : Object} (has : ∀ query, object = .query query → query.HasDefaults maker) :
    Brings maker (Act.newResult object) := by
  intro session after label face run query stored
  obtain ⟨value, between, made, run⟩ := run.bind_ok
  obtain ⟨given, rfl⟩ := runs_pure.mp run
  obtain rfl := Outcome.value.inj (Except.ok.inj given)
  obtain ⟨fresh, _, _, made⟩ := made.bind_ok
  obtain ⟨_, _, put, made⟩ := made.bind_ok
  obtain ⟨same, rfl⟩ := runs_pure.mp made
  obtain ⟨rfl, -⟩ := Value.object.inj (Except.ok.inj same)
  obtain ⟨-, rfl⟩ := runs_put.mp put
  rw [stored?_put, if_pos rfl] at stored
  exact has query (Option.some.inj stored)

theorem brings_queryResult (action : Build BuiltQuery) : Brings maker (Act.queryResult action) := by
  intro session after label face run
  obtain ⟨value, between, built, run⟩ := run.bind_ok
  obtain ⟨given, rfl⟩ := runs_pure.mp run
  obtain rfl := Outcome.value.inj (Except.ok.inj given)
  obtain ⟨query, _, made⟩ := built.yields.bind
  obtain ⟨_, _, made⟩ := made.bind
  obtain ⟨_, _, made⟩ := made.bind
  cases yields_pure.mp made

end Results

/-! ### The methods of a statement -/

/-- A method that sets no defaults leaves those of the object under the label, and if it gives a statement, this has them too. -/
def PreservesDefaults (maker : Defaults) (label : Label) (entry : Text × Method (Act Outcome)) : Prop :=
  ∀ arguments, (entry.1 ∉ settingDefaults → KeepsDefaults maker label (entry.2.run arguments)) ∧ Brings maker (entry.2.run arguments)

section Methods

variable {maker : Defaults} {label : Label} {query : Query}

private theorem changing_preserve (fixed : maker.Fixed) {methods : Methods (Changes Statement.Edit)}
    (read : ∀ arguments, ∀ entry ∈ methods, ReadsEdits arguments entry) :
    ∀ entry ∈ methods.changing (editStatement label), PreservesDefaults maker label entry := by
  refine List.forall_mem_map.mpr fun entry member arguments => ⟨fun other => ?_, brings_bind fun _ => brings_itself⟩
  have reads : ReadsChanges (entry.1 ∉ severalEntries) (fun edit => edit.keepsDefaults = true) (entry.2.run arguments) :=
    Reads.imp (read arguments entry member) fun list each =>
      ⟨each.1, fun change inside => (each.2 change inside).imp fun _ keeps => keeps other⟩
  exact (keepsDefaults_makeAll fixed reads).bind fun _ _ _ _ => Keeps.pure fun _ _ => trivial

private theorem queryResult_preserves {name : Text} {signature : Signature} {build : Arguments → Build BuiltQuery} :
    PreservesDefaults maker label (name, ⟨signature, fun arguments => Act.queryResult (build arguments)⟩) :=
  fun _ => ⟨fun _ => keepsDefaults_queryResult _, brings_queryResult _⟩

private theorem populatingResults_preserve (statement : Statement Query) :
    ∀ entry ∈ populatingResults statement, PreservesDefaults maker label entry := by
  have refused (name : Text) : PreservesDefaults maker label (name, populating) := fun _ => ⟨fun _ => Keeps.throw _, brings_throw _⟩
  refine List.forall_mem_append.mpr ⟨?_, ?_⟩
  all_goals
    split
    · exact List.forall_mem_singleton.mpr (refused _)
    · exact List.forall_mem_nil _

variable (has : query.HasDefaults maker)
include has

private theorem unite_preserves (name : Text) (operator : SetOperator) : PreservesDefaults maker label (name, unite query operator) := by
  intro arguments
  have given (other : Query) : ∀ query', Object.query (query.united operator other (arguments.get "alias")) = .query query' →
      query'.HasDefaults maker := by
    rintro _ ⟨⟩
    exact has.united operator other _
  refine ⟨fun _ => (keepsDefaults_of_reads (reads_copy query)).bind ?_, brings_copy (brings_bind fun other => brings_newResult (given other))⟩
  rintro _ _ _ rfl
  exact (keepsDefaults_of_reads (reads_query _)).bind fun _ _ other _ => keepsDefaults_newResult (given other)

private theorem queryResults_preserve : ∀ entry ∈ queryResults query, PreservesDefaults maker label entry := by
  have clone : ∀ query', Object.query query.detached = .query query' → query'.HasDefaults maker := by
    rintro _ ⟨⟩
    exact has.detached
  simp only [queryResults, List.forall_mem_cons]
  refine ⟨queryResult_preserves, queryResult_preserves, fun _ => ⟨fun _ => (keepsDefaults_of_reads (reads_copy query)).bind ?_,
    brings_copy (brings_newResult clone)⟩, List.forall_mem_nil _⟩
  rintro _ _ _ rfl
  exact keepsDefaults_newResult clone

theorem queryMethods_preserve (fixed : maker.Fixed) : ∀ entry ∈ queryMethods label query, PreservesDefaults maker label entry := by
  have edits : ∀ arguments, ∀ entry ∈ settingEdits ++ clauseEdits ++ writingEdits, ReadsEdits arguments entry := fun arguments =>
    List.forall_mem_append.mpr ⟨List.forall_mem_append.mpr ⟨settingEdits_read arguments, clauseEdits_read arguments⟩,
      writingEdits_read arguments⟩
  have changes : ∀ entry ∈ (sharedEdits query.statement).changing (editStatement label), PreservesDefaults maker label entry :=
    changing_preserve fixed fun arguments => forall_mem_sharedEdits (edits arguments) query.statement
  have common := List.forall_mem_append.mpr ⟨List.forall_mem_append.mpr ⟨changes, queryResults_preserve has⟩,
    populatingResults_preserve query.statement⟩
  have united : ∀ entry ∈ selectResults query, PreservesDefaults maker label entry :=
    List.forall_mem_cons.mpr ⟨unite_preserves has _ .union, List.forall_mem_singleton.mpr (unite_preserves has _ .unionAll)⟩
  unfold queryMethods
  split
  · exact List.forall_mem_append.mpr ⟨List.forall_mem_append.mpr ⟨changing_preserve fixed compoundEdits_read,
      List.forall_mem_singleton.mpr queryResult_preserves⟩, common⟩
  · exact List.forall_mem_append.mpr ⟨united, common⟩
  · exact common

end Methods

/-! ### Statements that come from a maker -/

/-- What is under the label comes from the maker: it was made by it, it has been worked on, or it was given by a method of something that comes from it. Calls that set defaults are left out; what else happens in the session leaves the object as it is. -/
inductive Derived (maker : Defaults) : Session → Label → Prop
  | made {session after : Session} {name : Text} {values : List Value} {named : List (Text × Value)} {label : Label} {face : ObjectFace}
      (run : ((queryMakerMethods maker).call name values named).Runs session (.ok (.value (.object label face))) after) :
      Derived maker after label
  | called {session after : Session} {label : Label} {query : Query} {name : Text} {values : List Value}
      {named : List (Text × Value)} {outcome : Except Error Outcome} (derived : Derived maker session label)
      (shown : session.object? label = some (.query query)) (other : name ∉ settingDefaults)
      (run : ((queryMethods label query).call name values named).Runs session outcome after) : Derived maker after label
  | given {session after : Session} {label label' : Label} {query : Query} {name : Text} {values : List Value}
      {named : List (Text × Value)} {face : ObjectFace} (derived : Derived maker session label)
      (shown : session.object? label = some (.query query))
      (run : ((queryMethods label query).call name values named).Runs session (.ok (.value (.object label' face))) after) :
      Derived maker after label'
  | populated {session after : Session} {label : Label} {outcome : Except Error Unit} (derived : Derived maker session label)
      (groups : Bool) (conditions : Restriction)
      (run : (editStatement label (if groups then .groupFilter conditions else .filter conditions)).Runs session outcome after) :
      Derived maker after label
  | elsewhere {session after : Session} {label : Label} (derived : Derived maker session label)
      (same : after.stored? label = session.stored? label) : Derived maker after label

section Derived

variable {maker : Defaults}

private theorem queryMakerMethods_bring : ∀ entry ∈ queryMakerMethods maker, ∀ arguments, Brings maker (entry.2.run arguments) := by
  have none {object : Object} (other : ∀ query, object ≠ .query query) : Brings maker (Act.newResult object) :=
    brings_newResult fun query same => absurd same (other query)
  simp only [queryMakerMethods, List.forall_mem_cons]
  refine ⟨fun _ => ?_, fun _ => ?_, fun _ => ?_, fun _ => ?_, fun _ => ?_, fun _ => brings_bind fun _ => none (by rintro _ ⟨⟩),
    fun _ => brings_bind fun _ => brings_bind fun _ => none (by rintro _ ⟨⟩), fun _ => none (by rintro _ ⟨⟩), List.forall_mem_nil _⟩
  all_goals
    refine brings_newResult ?_
    rintro _ ⟨⟩
    exact ⟨settingsOf maker, rfl, rfl, rfl, rfl⟩

private theorem defaulted_of_runs {label : Label} {α : Type} {action : Act α} (keeps : KeepsDefaults maker label action)
    {session after : Session} {outcome : Except Error α} (has : Defaulted maker label session) (run : action.Runs session outcome after) :
    Defaulted maker label after := by
  obtain ⟨_, _, there, _⟩ := keeps () le_rfl session has
  unfold Runs at run
  rwa [run] at there

theorem Derived.defaulted (fixed : maker.Fixed) {session : Session} {label : Label} (derived : Derived maker session label) :
    Defaulted maker label session := by
  induction derived with
  | made run =>
    obtain ⟨⟨_, ⟨⟩⟩, _⟩ | ⟨method, arguments, found, -, run⟩ := runs_call run
    exact queryMakerMethods_bring _ (mem_of_lookup found) arguments _ _ _ _ run
  | called _ shown other run has =>
    obtain ⟨-, rfl, -⟩ | ⟨method, arguments, found, -, run⟩ := runs_call run
    · exact has
    · exact defaulted_of_runs ((queryMethods_preserve (has.shown fixed shown) fixed _ (mem_of_lookup found) arguments).1 other) has run
  | given _ shown run has =>
    obtain ⟨⟨_, ⟨⟩⟩, _⟩ | ⟨method, arguments, found, -, run⟩ := runs_call run
    exact (queryMethods_preserve (has.shown fixed shown) fixed _ (mem_of_lookup found) arguments).2 _ _ _ _ run
  | populated _ groups conditions run has =>
    have keeps : (if groups then Statement.Edit.groupFilter conditions else .filter conditions).keepsDefaults = true := by
      split <;> rfl
    exact defaulted_of_runs (keepsDefaults_editStatement fixed keeps) has run
  | elsewhere _ same has =>
    rw [Defaulted, same]
    exact has

/-- Every statement that comes from a maker has its flavor and its defaults of compaction: to set them again would change nothing, and what is built when nothing is asked for is what is built when the defaults are asked for. -/
theorem Derived.hasDefaults (fixed : maker.Fixed) {session : Session} {label : Label} (derived : Derived maker session label)
    {query : Query} (shown : session.object? label = some (.query query)) :
    query.HasDefaults maker ∧ (Statement.Edit.flavor maker.flavor).apply query.statement = pure query.statement ∧
      (Statement.Edit.compaction maker.compact maker.deep).apply query.statement = pure query.statement ∧
      query.build none none = query.build (some maker.compact.truthy) (some maker.deep.truthy) := by
  have has := (derived.defaulted fixed).shown fixed shown
  refine ⟨has, ?_⟩
  obtain ⟨settings, given, flavor, compact, deep⟩ := has
  obtain ⟨statement⟩ := query
  rw [← flavor, ← compact, ← deep]
  cases statement with
  | built _ | unbuildable => cases given
  | select s | compound s | insert s | update s | delete s =>
    obtain rfl := Option.some.inj given
    exact ⟨rfl, rfl, rfl⟩

end Derived

private def mysqlMaker : Defaults :=
  ⟨.mysql, .bool true, .bool false⟩

private def selected : Query :=
  .of (.select { settings := settingsOf mysqlMaker, table := .text "t" })

private def restricted : Query :=
  .of (.select
    { settings := settingsOf mysqlMaker, table := .text "t", filter := .chain ⟨⟨[(.and, ⟨.plain "a = ?", [.int 1]⟩)]⟩, none⟩ })

private def united : Query :=
  selected.united .union selected .null

private def selectFace : ObjectFace :=
  ⟨"SelectQuery", "<SelectQuery>", true⟩

private def compoundFace : ObjectFace :=
  ⟨"UnionQuery", "<UnionQuery>", true⟩

/-- A statement that was made, was given a condition and cleared again, and then joined with itself by a union. -/
theorem Derived.hasDefaults_of_union : ∃ session label query, Derived mysqlMaker session label ∧
    session.object? label = some (.query query) ∧ query.HasDefaults mysqlMaker := by
  obtain ⟨made, making, rfl⟩ : ∃ made, ((queryMakerMethods mysqlMaker).call "select" [.text "t"] []).Runs {}
      (.ok (.value (.object 0 selectFace))) made ∧ made = ⟨[(0, .query selected)], [], {}, ⟨1, []⟩⟩ :=
    ⟨_, rfl, rfl⟩
  obtain ⟨changed, changing, rfl⟩ : ∃ changed, ((queryMethods 0 selected).call "where" [.text "a = ?", .int 1] []).Runs
      ⟨[(0, .query selected)], [], {}, ⟨1, []⟩⟩ (.ok .itself) changed ∧
        changed = ⟨[(0, .query restricted)], [], {}, ⟨1, []⟩⟩ :=
    ⟨_, rfl, rfl⟩
  obtain ⟨cleared, clearing, rfl⟩ : ∃ cleared, ((queryMethods 0 restricted).call "reset" [] []).Runs
      ⟨[(0, .query restricted)], [], {}, ⟨1, []⟩⟩ (.ok .itself) cleared ∧
        cleared = ⟨[(0, .query selected)], [], {}, ⟨1, []⟩⟩ :=
    ⟨_, rfl, rfl⟩
  obtain ⟨after, uniting, shown⟩ : ∃ after, ((queryMethods 0 selected).call "union" [.object 0 selectFace] []).Runs
      ⟨[(0, .query selected)], [], {}, ⟨1, []⟩⟩ (.ok (.value (.object 1 compoundFace))) after ∧
        after.object? 1 = some (.query united) :=
    ⟨_, rfl, rfl⟩
  have reset : Derived mysqlMaker ⟨[(0, .query selected)], [], {}, ⟨1, []⟩⟩ 0 :=
    ((Derived.made making).called rfl (by decide) changing).called rfl (by decide) clearing
  have derived : Derived mysqlMaker after 1 := reset.given rfl uniting
  exact ⟨after, 1, united, derived, shown, (derived.hasDefaults ⟨fun _ => rfl, fun _ => rfl⟩ shown).1⟩

end Session

end SqlCompose
