import Mathlib
import SqlCompose.Proofs.Runs
import SqlCompose.Proofs.SharedMethods
import SqlCompose.Session.Step

/-!
# Calls of `build`

What a call of `build` gives in a session. All objects but statements on tables are built from what they hold themselves: two sessions that show the same object build the same, whatever is asked for and whatever has been given out in the meantime, and so does a copy of the object that shares no part with anybody.
-/

namespace SqlCompose

/-! ### Copies build the same -/

theorem Clause.conditions_detached (keyword : Text) (restriction : Restriction) :
    Clause.conditions keyword restriction.detached = Clause.conditions keyword restriction := by
  cases restriction <;> rfl

/-- A copy that shares no part with anybody builds what the query builds. -/
theorem Query.build_detached (query : Query) (compact deep : Option Bool) : query.detached.build compact deep = query.build compact deep := by
  obtain ⟨statement⟩ := query
  cases statement with
  | select s =>
    have render : (s.map toChild).detached.render = (s.map toChild).render := by
      simp only [Select.render, Select.detached, Clause.conditions_detached]
      rfl
    exact congrArg (fun render => s.settings.finish .select render compact deep) render
  | compound s =>
    have render : (s.map toChild).detached.render = (s.map toChild).render := by
      simp only [Compound.render, Compound.detached, Clause.conditions_detached]
      rfl
    exact congrArg (fun render => s.settings.finish .union render compact deep) render
  | update s =>
    have render : (s.map toChild).detached.render = (s.map toChild).render := by
      simp only [Update.render, Update.detached, Clause.conditions_detached]
      rfl
    exact congrArg (fun render => s.settings.finish .update render compact deep) render
  | delete s =>
    have render : (s.map toChild).detached.render = (s.map toChild).render := by
      simp only [Delete.render, Delete.detached, Clause.conditions_detached]
      rfl
    exact congrArg (fun render => s.settings.finish .delete render compact deep) render
  | built | insert | unbuildable => rfl

/-- An object that is built from itself alone. -/
def Object.Alone : Object → Prop
  | .table _ | .queryMaker _ | .tableMaker _ => False
  | _ => True

/-- A copy of an object that shares no part with anybody. -/
def Object.detached : Object → Object
  | .query q => .query q.detached
  | other => other

namespace Session

open Act

/-! ### What calls of `build` give -/

/-- Whatever is asked for, building the one object in the one session gives what building the other in the other session gives. -/
def BuildsAs (session : Session) (handle : Value) (session' : Session) (handle' : Value) : Prop :=
  ∀ values named trace, ((invoke handle "build" values named).run { session with trace }).1 =
    ((invoke handle' "build" values named).run { session' with trace }).1

/-- Objects look the same whatever has been given out and logged. -/
theorem object?_withTrace (session : Session) (trace : Trace) (label : Label) :
    ({ session with trace } : Session).object? label = session.object? label := by
  have faces (depth : Nat) : ({ session with trace } : Session).faceWithin depth = session.faceWithin depth := by
    induction depth with
    | zero => rfl
    | succ depth ih =>
      funext label
      simp only [faceWithin, ih]
      rfl
  have current : ({ session with trace } : Session).current = session.current := by
    funext value
    exact congrArg (Value.refaced · value) (faces _)
  simp only [object?, current]
  rfl

section Calls

variable {session : Session} {label : Label} {object : Object}

theorem runs_methodsOf (shown : session.object? label = some object) (face : ObjectFace) :
    (methodsOf (.object label face)).Runs session (.ok (objectMethods label object)) session :=
  Runs.andThen (Runs.andThen (runs_object shown) (runs_pure.mpr ⟨rfl, rfl⟩)) (runs_pure.mpr ⟨rfl, rfl⟩)

theorem runs_attributesOf (shown : session.object? label = some object) (face : ObjectFace) :
    (attributesOf (.object label face)).Runs session (.ok (objectAttributes object)) session :=
  Runs.andThen (Runs.andThen (runs_object shown) (runs_pure.mpr ⟨rfl, rfl⟩)) (runs_pure.mpr ⟨rfl, rfl⟩)

/-- A call of a method of an object that is no attribute of it. -/
theorem run_invoke (shown : session.object? label = some object) (face : ObjectFace) {name : Text} {method : Method (Act Outcome)}
    (unread : (objectAttributes object).lookup name = none) (found : (objectMethods label object).lookup name = some method)
    (values : List Value) (named : List (Text × Value)) :
    (invoke (.object label face) name values named).run session =
      match method.signature.bind values named with
      | .ok arguments => (method.run arguments).run session
      | .error error => (.error error, session) := by
  have methods := runs_methodsOf shown face
  have attributes := runs_attributesOf shown face
  unfold Runs at methods attributes
  rw [invoke, run_bind, methods]
  dsimp only
  rw [run_bind, attributes]
  simp only [unread, found, Methods.call, Option.isSome_none, Option.isNone_some, Bool.false_eq_true, if_false, Bool.and_false]
  cases method.signature.bind values named <;> rfl

end Calls

/-! ### Objects that are built from themselves -/

/-- The outcome of the computation depends on nothing of a session but on what has been given out and logged. -/
def Blind {α : Type} (action : Act α) : Prop :=
  ∀ session session' : Session, session.trace = session'.trace → (action.run session).1 = (action.run session').1

theorem outcome_builtResult (action : Build Value) (session : Session) :
    ((builtResult action).run session).1 = (Build.runFrom session.trace action).1.map Outcome.value := by
  change (ExceptT.bindCont (fun value => (pure (Outcome.value value) : Act Outcome)) (Build.runFrom session.trace action).1 _).1 = _
  cases (Build.runFrom session.trace action).1 <;> rfl

private theorem blind_builtResult (action : Build Value) : Blind (builtResult action) := by
  intro session session' same
  rw [outcome_builtResult, outcome_builtResult, same]

theorem unread_build (object : Object) : (objectAttributes object).lookup ("build" : Text) = none := by
  cases object with
  | query q =>
    obtain ⟨statement⟩ := q
    cases statement <;> rfl
  | table t => cases t <;> rfl
  | _ => rfl

private theorem lookup_build (label : Label) (query : Query) : (queryMethods label query).lookup ("build" : Text) =
    some ⟨.plain [] [("compact", .null), ("deep_compare", .null)], fun arguments =>
      queryResult (query.build (arguments.get "compact").asSwitch (arguments.get "deep_compare").asSwitch)⟩ := by
  rw [lookup_unshared label query (by decide)]
  obtain ⟨statement⟩ := query
  cases statement <;> rfl

/-- An object that is built from itself, its copies, and such objects under other labels are built in one way. -/
private theorem exists_build {object : Object} (alone : object.Alone) : ∃ method : Method (Act Outcome),
    (∀ label, (objectMethods label object).lookup ("build" : Text) = some method) ∧
      (∀ label, (objectMethods label object.detached).lookup ("build" : Text) = some method) ∧
      ∀ arguments, Blind (method.run arguments) := by
  cases object with
  | chain c => exact ⟨_, fun _ => rfl, fun _ => rfl, fun arguments => blind_builtResult _⟩
  | query q =>
    refine ⟨_, fun label => lookup_build label q, fun label => ?_, fun arguments => blind_builtResult _⟩
    refine (lookup_build label q.detached).trans ?_
    simp only [Query.build_detached]
  | cte c => exact ⟨_, fun _ => rfl, fun _ => rfl, fun arguments => blind_builtResult _⟩
  | ctes cs => exact ⟨_, fun _ => rfl, fun _ => rfl, fun arguments => blind_builtResult _⟩
  | column c => exact ⟨_, fun _ => rfl, fun _ => rfl, fun arguments => blind_builtResult _⟩
  | table _ | queryMaker _ | tableMaker _ => exact alone.elim

section Alone

variable {session session' : Session} {label label' : Label} {object : Object}

/-- An object that is built from itself builds the same in two sessions. -/
theorem buildsAs_alone (alone : object.Alone) (shown : session.object? label = some object) (shown' : session'.object? label' = some object)
    (face face' : ObjectFace) : session.BuildsAs (.object label face) session' (.object label' face') := by
  intro values named trace
  obtain ⟨method, found, _, blind⟩ := exists_build alone
  rw [run_invoke ((object?_withTrace session trace label).trans shown) face (unread_build object) (found label),
    run_invoke ((object?_withTrace session' trace label').trans shown') face' (unread_build object) (found label')]
  cases method.signature.bind values named with
  | ok arguments => exact blind arguments _ _ rfl
  | error error => rfl

/-- A copy of an object that is built from itself builds what the object builds. -/
theorem buildsAs_detached (alone : object.Alone) (shown : session.object? label = some object)
    (shown' : session'.object? label' = some object.detached) (face face' : ObjectFace) :
    session.BuildsAs (.object label face) session' (.object label' face') := by
  intro values named trace
  obtain ⟨method, found, found', blind⟩ := exists_build alone
  rw [run_invoke ((object?_withTrace session trace label).trans shown) face (unread_build object) (found label),
    run_invoke ((object?_withTrace session' trace label').trans shown') face' (unread_build _) (found' label')]
  cases method.signature.bind values named with
  | ok arguments => exact blind arguments _ _ rfl
  | error error => rfl

end Alone

end Session

end SqlCompose
