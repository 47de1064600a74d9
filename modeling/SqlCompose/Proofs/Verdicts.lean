import Mathlib
import SqlCompose.Proofs.ConditionMeaning
import SqlCompose.Proofs.Yields
import SqlCompose.Statement.Clause

/-!
# Failing only for want of a part

A computation settles on a result if it fails just when something is lacking, then for want of a part, and otherwise gives a result of some sort. Whether something is lacking is said before the computation runs, so the trace it starts from plays no role. Steps that settle make up computations that settle: what the whole lacks is what one of its steps lacks.
-/

namespace SqlCompose

namespace Build

variable {α β γ : Type} {lacking lacking' : Prop} {good good' : α → Prop}

/-- An outcome that fits: a good result if nothing is lacking, and else a failure for want of a part. -/
inductive Verdict (lacking : Prop) (good : α → Prop) : Except Error α → Prop
  | gives {result : α} (complete : ¬ lacking) (fine : good result) : Verdict lacking good (.ok result)
  | fails {omission : Omission} (incomplete : lacking) : Verdict lacking good (.error (.incomplete omission))

theorem Verdict.imp {outcome : Except Error α} (verdict : Verdict lacking good outcome) (same : lacking ↔ lacking')
    (better : ∀ result, good result → good' result) : Verdict lacking' good' outcome := by
  cases verdict with
  | gives complete fine => exact .gives (fun lacks => complete (same.mpr lacks)) (better _ fine)
  | fails incomplete => exact .fails (same.mp incomplete)

/-- From every trace the outcome fits. -/
def Settles (action : Build α) (lacking : Prop) (good : α → Prop) : Prop :=
  ∀ trace, Verdict lacking good (runFrom trace action).1

namespace Settles

theorem imp {action : Build α} (settles : action.Settles lacking good) (same : lacking ↔ lacking')
    (better : ∀ result, good result → good' result) : action.Settles lacking' good' :=
  fun trace => (settles trace).imp same better

theorem congr {action : Build α} (settles : action.Settles lacking good) (same : lacking ↔ lacking') :
    action.Settles lacking' good :=
  settles.imp same fun _ fine => fine

theorem mono {action : Build α} (settles : action.Settles lacking good) (better : ∀ result, good result → good' result) :
    action.Settles lacking good' :=
  settles.imp Iff.rfl better

theorem of_yields {action : Build α} (settles : action.Settles lacking good) {result : α} (yields : action.Yields result) :
    ¬ lacking ∧ good result := by
  obtain ⟨trace, after, done⟩ := yields
  have verdict := settles trace
  rw [done] at verdict
  cases verdict with
  | gives complete fine => exact ⟨complete, fine⟩

theorem yielding {action : Build α} (settles : action.Settles lacking good) :
    action.Settles lacking fun result => action.Yields result ∧ good result := by
  intro trace
  have verdict := settles trace
  cases done : runFrom trace action with
  | mk outcome after =>
    rw [done] at verdict
    cases verdict with
    | gives complete fine => exact .gives complete ⟨⟨trace, after, done⟩, fine⟩
    | fails incomplete => exact .fails incomplete

theorem pure {value : α} (fine : good value) : (Pure.pure value : Build α).Settles False good :=
  fun _ => .gives not_false fine

theorem lift {outcome : Except Error α} {value : α} (done : outcome = .ok value) (fine : good value) :
    (liftM outcome : Build α).Settles False good := by
  subst done
  exact pure fine

theorem known {outcome : Except Error β} {value : β} {next : β → Build α} (done : outcome = .ok value)
    (settles : (next value).Settles lacking good) : ((liftM outcome : Build β) >>= next).Settles lacking good := by
  subst done
  exact settles

theorem log (logger : Text) (level : LogLevel) (message : Text) : (Build.log logger level message).Settles False fun _ => True :=
  fun _ => .gives not_false trivial

theorem failFor (logger : Text) (omission : Omission) : (Build.failFor logger omission : Build α).Settles True good :=
  fun _ => .fails trivial

theorem require (present : Bool) (logger : Text) (omission : Omission) :
    (Build.require present logger omission).Settles (present = false) fun _ => present = true := by
  cases present with
  | true =>
    have goesOn : (Pure.pure () : Build Unit).Settles False fun _ => true = true := pure rfl
    exact goesOn.congr (by decide)
  | false => exact (failFor logger omission).congr (show True ↔ false = false by decide)

/-! ### One step after another -/

theorem bind {first : Build β} {next : β → Build α} {given : β → Prop} (settles : first.Settles lacking given)
    (further : ∀ value, given value → (next value).Settles lacking' good) :
    (first >>= next).Settles (lacking ∨ lacking') good := by
  intro trace
  have verdict := settles trace
  rw [runFrom_bind]
  cases done : runFrom trace first with
  | mk outcome between =>
    rw [done] at verdict
    cases verdict with
    | gives complete fine => exact (further _ fine between).imp (by simp [complete]) fun _ fine' => fine'
    | fails incomplete => exact .fails (.inl incomplete)

theorem after {first : Build β} {next : β → Build α} {given : β → Prop} (settles : first.Settles False given)
    (further : ∀ value, given value → (next value).Settles lacking good) : (first >>= next).Settles lacking good :=
  (settles.bind further).congr (by simp)

theorem andThen {first : Build β} {next : β → Build α} {given : β → Prop} (settles : first.Settles lacking given)
    (further : ∀ value, given value → (next value).Settles False good) : (first >>= next).Settles lacking good :=
  (settles.bind further).congr (by simp)

theorem mapM {f : β → Build α} {items : List β} {lacks : β → Prop} {fits : β → α → Prop}
    (each : ∀ item ∈ items, (f item).Settles (lacks item) (fits item)) :
    (items.mapM f).Settles (∃ item ∈ items, lacks item) (List.Forall₂ fits items) := by
  induction items with
  | nil => exact (pure .nil).congr (by simp)
  | cons item items ih =>
    rw [List.mapM_cons]
    have others := ih fun other member => each other (List.mem_cons_of_mem item member)
    refine ((each item (by simp)).bind fun result here => ?_).congr
      (List.exists_mem_cons_iff lacks item items).symm
    exact others.andThen fun results there => pure (.cons here there)

end Settles

end Build

open Build

/-! ### Copies -/

namespace Value

/-- Values with the same content, place by place: labels aside, the same values. -/
def SameContent (values values' : List Value) : Prop :=
  values.map content = values'.map content

namespace SameContent

variable {values values' others others' : List Value}

theorem refl (values : List Value) : SameContent values values := rfl

theorem trans (first : SameContent values others) (second : SameContent others others') : SameContent values others' :=
  Eq.trans first second

theorem append (first : SameContent values values') (second : SameContent others others') :
    SameContent (values ++ others) (values' ++ others') := by
  unfold SameContent
  rw [List.map_append, List.map_append, first, second]

theorem length_eq (same : SameContent values values') : values.length = values'.length := by
  simpa using congrArg List.length same

end SameContent

theorem settles_copyAll (values : List Value) : (copyAll values).Settles False (SameContent · values) := by
  intro trace
  refine .gives not_false ?_
  exact content_of_copyAll ⟨trace, _, rfl⟩

theorem settles_checkAll {values : List Value} (sound : faultItems? values = none) :
    (checkAll values).Settles False (SameContent · values) := by
  rw [checkAll, sound]
  exact settles_copyAll values

end Value

theorem BuiltQuery.settles_ofParts (text : Value) (values : List Value) :
    (ofParts text values).Settles False fun built => built.text = text ∧ Value.SameContent built.values values :=
  (Value.settles_copyAll values).after fun _ same => .pure ⟨rfl, same⟩

/-- A predicate is made if its markers are as many as its values, and these can be bound. -/
theorem Predicate.settles_make {text : Wording} {values : List Value} (counted : Token.countMarkers text.content = values.length)
    (sound : Value.faultItems? values = none) :
    (make text values).Settles False fun predicate => predicate.text = text ∧ Value.SameContent predicate.values values := by
  refine (Value.settles_checkAll sound).after fun copies same => ?_
  rw [if_pos (counted.trans same.length_eq.symm)]
  exact .pure ⟨rfl, same⟩

end SqlCompose
