import Mathlib
import SqlCompose.Proofs.Yields
import SqlCompose.Session.State

/-!
# Runs in a session

A run of a sequence of steps is a run of its first step and, unless this fails, a run of the rest in the session that it leaves. A run that fails has failed at one step, and what the steps in front of it have done stays.
-/

namespace SqlCompose.Act

variable {α β : Type}

/-- Done in a session, the computation has the outcome and leaves the other session. -/
def Runs (action : Act α) (session : Session) (outcome : Except Error α) (after : Session) : Prop :=
  action.run session = (outcome, after)

theorem exists_runs (action : Act α) (session : Session) : ∃ outcome after, action.Runs session outcome after :=
  ⟨_, _, rfl⟩

variable {action first : Act α} {next : α → Act β} {session after : Session}

theorem Runs.unique {outcome outcome' : Except Error α} {after' : Session} (run : action.Runs session outcome after)
    (run' : action.Runs session outcome' after') : outcome = outcome' ∧ after = after' :=
  Prod.mk.inj (run.symm.trans run')

theorem runs_pure {value : α} {outcome : Except Error α} :
    (pure value : Act α).Runs session outcome after ↔ outcome = .ok value ∧ after = session :=
  ⟨fun run => ⟨(congrArg Prod.fst run).symm, (congrArg Prod.snd run).symm⟩, by rintro ⟨rfl, rfl⟩; rfl⟩

theorem runs_throw {error : Error} {outcome : Except Error α} :
    (throw error : Act α).Runs session outcome after ↔ outcome = .error error ∧ after = session :=
  ⟨fun run => ⟨(congrArg Prod.fst run).symm, (congrArg Prod.snd run).symm⟩, by rintro ⟨rfl, rfl⟩; rfl⟩

theorem runs_lift {given outcome : Except Error α} :
    (liftM given : Act α).Runs session outcome after ↔ outcome = given ∧ after = session := by
  cases given with
  | ok value => exact runs_pure
  | error error => exact runs_throw

theorem run_bind (first : Act α) (next : α → Act β) (session : Session) :
    (first >>= next).run session = match first.run session with
      | (.ok value, between) => (next value).run between
      | (.error error, after) => (.error error, after) := by
  change (ExceptT.bindCont next (first.run session).1) (first.run session).2 = _
  cases first.run session with
  | mk outcome between => cases outcome <;> rfl

/-- Behind a step that succeeds the rest is done in the session that it leaves. -/
theorem Runs.andThen {value : α} {between : Session} {outcome : Except Error β} (start : first.Runs session (.ok value) between)
    (rest : (next value).Runs between outcome after) : (first >>= next).Runs session outcome after := by
  unfold Runs at start
  rw [Runs, run_bind, start]
  exact rest

/-- Behind a step that succeeds nothing but the rest is done. -/
theorem Runs.bind_iff {value : α} {between : Session} {outcome : Except Error β} (start : first.Runs session (.ok value) between) :
    (first >>= next).Runs session outcome after ↔ (next value).Runs between outcome after := by
  unfold Runs at start ⊢
  rw [run_bind, start]

theorem Runs.orFail {error : Error} (start : first.Runs session (.error error) after) :
    (first >>= next).Runs session (.error error) after := by
  unfold Runs at start
  rw [Runs, run_bind, start]

theorem Runs.bind {outcome : Except Error β} (run : (first >>= next).Runs session outcome after) :
    (∃ value between, first.Runs session (.ok value) between ∧ (next value).Runs between outcome after) ∨
      ∃ error, first.Runs session (.error error) after ∧ outcome = .error error := by
  obtain ⟨start, between, started⟩ := first.exists_runs session
  cases start with
  | ok value =>
    obtain ⟨outcome', after', further⟩ := (next value).exists_runs between
    obtain ⟨rfl, rfl⟩ := run.unique (started.andThen further)
    exact .inl ⟨value, between, started, further⟩
  | error error =>
    obtain ⟨rfl, rfl⟩ := run.unique started.orFail
    exact .inr ⟨error, started, rfl⟩

theorem Runs.bind_ok {result : β} (run : (first >>= next).Runs session (.ok result) after) :
    ∃ value between, first.Runs session (.ok value) between ∧ (next value).Runs between (.ok result) after := by
  obtain found | ⟨_, _, ⟨⟩⟩ := run.bind
  exact found

theorem runs_build {action : Build α} {outcome : Except Error α} :
    (build action).Runs session outcome after ↔
      ∃ trace, Build.runFrom session.trace action = (outcome, trace) ∧ after = { session with trace } := by
  have run : (build action).Runs session (Build.runFrom session.trace action).1
      { session with trace := (Build.runFrom session.trace action).2 } := rfl
  constructor
  · intro other
    obtain ⟨rfl, rfl⟩ := other.unique run
    exact ⟨_, rfl, rfl⟩
  · rintro ⟨trace, done, rfl⟩
    rwa [done] at run

theorem Runs.yields {action : Build α} {result : α} (run : (build action).Runs session (.ok result) after) :
    action.Yields result := by
  obtain ⟨trace, done, -⟩ := runs_build.mp run
  exact ⟨session.trace, trace, done⟩

theorem runs_put {label : Label} {object : Object} {outcome : Except Error Unit} :
    (put label object).Runs session outcome after ↔ outcome = .ok () ∧ after = session.put label object :=
  ⟨fun run => ⟨(congrArg Prod.fst run).symm, (congrArg Prod.snd run).symm⟩, by rintro ⟨rfl, rfl⟩; rfl⟩

theorem runs_get : (get : Act Session).Runs session (.ok session) session :=
  rfl

theorem runs_object {label : Label} {found : Object} (shown : session.object? label = some found) :
    (object label).Runs session (.ok found) session := by
  refine runs_get.andThen ?_
  simp only [shown]
  exact runs_pure.mpr ⟨rfl, rfl⟩

theorem runs_object_missing {label : Label} (missing : session.object? label = none) :
    (object label).Runs session (.error .attributeMissing) session := by
  refine runs_get.andThen ?_
  simp only [missing]
  exact runs_throw.mpr ⟨rfl, rfl⟩

/-- What is found under a label is what the session shows there. -/
theorem Runs.object {label : Label} {outcome : Except Error Object} (run : (object label).Runs session outcome after) :
    after = session ∧ ∀ found, outcome = .ok found → session.object? label = some found := by
  cases shown : session.object? label with
  | some object =>
    obtain ⟨rfl, rfl⟩ := run.unique (runs_object shown)
    exact ⟨rfl, by rintro _ ⟨⟩; rfl⟩
  | none =>
    obtain ⟨rfl, rfl⟩ := run.unique (runs_object_missing shown)
    exact ⟨rfl, by rintro _ ⟨⟩⟩

end SqlCompose.Act
