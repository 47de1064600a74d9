import Mathlib
import SqlCompose.Value.Copy

/-!
# What computations keep

A computation that may fail runs from a state to a state. What is known of states grows with them: a stage says how far things have come, a state is at some stage, and what is known at a stage stays known at all later ones. A computation keeps to the stages if, from a state at a stage, it comes to a state at a later one, whether it succeeds or fails, and its result is as it should be there.

The rules follow the way computations are put together. They serve for building, where the stage is the number of labels given out, and for sessions alike.
-/

namespace SqlCompose

section Keeping

variable {ι σ α β : Type} [Preorder ι]

/-- From a stage on, the computation goes from states at a stage to states at later ones, with results of some sort. -/
def Keeps (reached : ι → σ → Prop) (stage : ι) (action : ExceptT Error (StateM σ) α) (result : ι → α → Prop) : Prop :=
  ∀ before, stage ≤ before → ∀ state, reached before state →
    ∃ after, before ≤ after ∧ reached after (action.run state).2 ∧ ∀ value, (action.run state).1 = .ok value → result after value

/-- What holds at a stage holds at all later ones. -/
def Growing (result : ι → α → Prop) : Prop :=
  ∀ ⦃before after⦄, before ≤ after → ∀ ⦃value⦄, result before value → result after value

namespace Keeps

variable {reached : ι → σ → Prop} {stage later : ι} {result further : ι → α → Prop} {action : ExceptT Error (StateM σ) α}

theorem mono (keeps : Keeps reached stage action result) (ahead : stage ≤ later) : Keeps reached later action result :=
  fun before further => keeps before (ahead.trans further)

theorem imp (keeps : Keeps reached stage action result)
    (implied : ∀ after, stage ≤ after → ∀ value, result after value → further after value) :
    Keeps reached stage action further := by
  intro before ahead state here
  obtain ⟨after, grown, here, results⟩ := keeps before ahead state here
  exact ⟨after, grown, here, fun value done => implied after (ahead.trans grown) value (results value done)⟩

theorem pure {value : α} (good : ∀ after, stage ≤ after → result after value) : Keeps reached stage (Pure.pure value) result := by
  intro before ahead state here
  refine ⟨before, le_rfl, here, fun given same => ?_⟩
  cases same
  exact good before ahead

theorem throw (error : Error) : Keeps reached stage (MonadExcept.throw error : ExceptT Error (StateM σ) α) result :=
  fun before _ _ here => ⟨before, le_rfl, here, by rintro _ ⟨⟩⟩

theorem bind {next : α → ExceptT Error (StateM σ) β} {final : ι → β → Prop} (first : Keeps reached stage action result)
    (second : ∀ between, stage ≤ between → ∀ value, result between value → Keeps reached between (next value) final) :
    Keeps reached stage (action >>= next) final := by
  intro before ahead state here
  obtain ⟨between, grown, here, results⟩ := first before ahead state here
  change ∃ after, before ≤ after ∧ reached after (ExceptT.bindCont next (action.run state).1 (action.run state).2).2 ∧
    ∀ value, (ExceptT.bindCont next (action.run state).1 (action.run state).2).1 = .ok value → final after value
  cases outcome : (action.run state).1 with
  | error error => exact ⟨between, grown, here, by rintro _ ⟨⟩⟩
  | ok value =>
    obtain ⟨after, grown', here, results'⟩ :=
      second between (ahead.trans grown) value (results value outcome) between le_rfl _ here
    exact ⟨after, grown.trans grown', here, results'⟩

/-- What is known of the state when a last step has followed, or when what came before it has failed. -/
theorem lastly {next : α → ExceptT Error (StateM σ) β} {known : σ → Prop} (first : Keeps reached stage action result)
    (failed : ∀ after state, reached after state → known state)
    (last : ∀ after value state, reached after state → result after value → known ((next value).run state).2) {state : σ}
    (here : reached stage state) : known ((action >>= next).run state).2 := by
  obtain ⟨after, _, there, results⟩ := first stage le_rfl state here
  change known (ExceptT.bindCont next (action.run state).1 (action.run state).2).2
  cases outcome : (action.run state).1 with
  | error error => exact failed after _ there
  | ok value => exact last after value _ there (results value outcome)

theorem lift {outcome : Except Error α} (good : ∀ value, outcome = .ok value → ∀ after, stage ≤ after → result after value) :
    Keeps reached stage (liftM outcome) result := by
  cases outcome with
  | ok value => exact Keeps.pure (good value rfl)
  | error error => exact Keeps.throw error

/-- A step that only reads, in front of what uses what it reads. -/
theorem after {outcome : Except Error α} {next : α → ExceptT Error (StateM σ) β} {final : ι → β → Prop}
    (second : ∀ value, outcome = .ok value → Keeps reached stage (next value) final) :
    Keeps reached stage ((liftM outcome : ExceptT Error (StateM σ) α) >>= next) final := by
  cases outcome with
  | ok value => exact second value rfl
  | error error => exact Keeps.throw error

section Lists

variable {f : β → ExceptT Error (StateM σ) α} {items : List β}

theorem mapM (growing : Growing result) (each : ∀ item ∈ items, Keeps reached stage (f item) result) :
    Keeps reached stage (items.mapM f) fun after values => ∀ value ∈ values, result after value := by
  induction items generalizing stage with
  | nil => exact Keeps.pure fun _ _ => by simp
  | cons item items ih =>
    rw [List.forall_mem_cons] at each
    rw [List.mapM_cons]
    refine each.1.bind fun between ahead value good => ?_
    refine (ih fun item member => (each.2 item member).mono ahead).bind fun between' ahead' values all => ?_
    exact Keeps.pure fun after further => List.forall_mem_cons.mpr
      ⟨growing (ahead'.trans further) good, fun value member => growing further (all value member)⟩

theorem forM {f : β → ExceptT Error (StateM σ) PUnit}
    (each : ∀ item ∈ items, Keeps reached stage (f item) fun _ _ => True) :
    Keeps reached stage (items.forM f) fun _ _ => True := by
  induction items generalizing stage with
  | nil => exact Keeps.pure fun _ _ => trivial
  | cons item items ih =>
    rw [List.forall_mem_cons] at each
    exact each.1.bind fun between ahead _ _ => ih fun item member => (each.2 item member).mono ahead

end Lists

end Keeps

end Keeping

end SqlCompose
