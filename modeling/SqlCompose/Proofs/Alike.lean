import Mathlib
import SqlCompose.Proofs.Yields

/-!
# Computations that run alike

Two computations run alike if, from whatever traces, they either both succeed, with results in some relation, or fail with one and the same failure. The traces need not agree: the labels that are given out depend on how the values of a computation are nested, and nothing that is related here depends on labels.

The rules follow the way computations are put together. What is only read off values, such as a quoted name, is the same on both sides, and `Build.alike_same` is the rule for it.
-/

namespace SqlCompose

/-- Two outcomes that are results in a relation, or one failure. -/
inductive Outcome.Alike {α β : Type} (related : α → β → Prop) : Except Error α → Except Error β → Prop
  | ok {left : α} {right : β} (both : related left right) : Alike related (.ok left) (.ok right)
  | error (error : Error) : Alike related (.error error) (.error error)

namespace Outcome

variable {α β γ δ : Type} {related : α → β → Prop} {further : γ → δ → Prop}

theorem alike_same (outcome : Except Error α) : Alike Eq outcome outcome := by
  cases outcome with
  | ok value => exact .ok rfl
  | error error => exact .error error

theorem Alike.bind {left : Except Error α} {right : Except Error β} (alike : Alike related left right)
    {next : α → Except Error γ} {next' : β → Except Error δ}
    (continued : ∀ value value', related value value' → Alike further (next value) (next' value')) :
    Alike further (left >>= next) (right >>= next') := by
  cases alike with
  | ok both => exact continued _ _ both
  | error error => exact .error error

theorem Alike.map {left : Except Error α} {right : Except Error β} (alike : Alike related left right) {f : α → γ} {f' : β → δ}
    (mapped : ∀ value value', related value value' → further (f value) (f' value')) :
    Alike further (left.map f) (right.map f') := by
  cases alike with
  | ok both => exact .ok (mapped _ _ both)
  | error error => exact .error error

end Outcome

namespace Build

variable {α β γ δ : Type} {related : α → β → Prop} {further : γ → δ → Prop}

/-- From whatever traces, the computations have outcomes that are alike. -/
def Alike (related : α → β → Prop) (left : Build α) (right : Build β) : Prop :=
  ∀ trace trace', Outcome.Alike related (runFrom trace left).1 (runFrom trace' right).1

theorem alike_pure {left : α} {right : β} (both : related left right) : Alike related (pure left) (pure right) :=
  fun _ _ => .ok both

theorem alike_throw (error : Error) : Alike related (throw error : Build α) (throw error : Build β) :=
  fun _ _ => .error error

theorem Alike.bind {left : Build α} {right : Build β} (alike : Alike related left right) {next : α → Build γ}
    {next' : β → Build δ} (continued : ∀ value value', related value value' → Alike further (next value) (next' value')) :
    Alike further (left >>= next) (right >>= next') := by
  intro trace trace'
  rw [runFrom_bind, runFrom_bind]
  have first := alike trace trace'
  cases start : runFrom trace left with
  | mk outcome between =>
    cases start' : runFrom trace' right with
    | mk outcome' between' =>
      rw [start, start'] at first
      cases first with
      | ok both => exact continued _ _ both between between'
      | error error => exact .error error

theorem alike_lift {left : Except Error α} {right : Except Error β} (alike : Outcome.Alike related left right) :
    Alike related (liftM left : Build α) (liftM right : Build β) := by
  cases alike with
  | ok both => exact alike_pure both
  | error error => exact alike_throw error

/-- What does not depend on the trace runs like itself. -/
theorem alike_same (outcome : Except Error α) : Alike Eq (liftM outcome : Build α) (liftM outcome : Build α) :=
  alike_lift (Outcome.alike_same outcome)

/-- A step that reads the same on both sides, in front of what uses what it reads. -/
theorem Alike.after (outcome : Except Error α) {next : α → Build γ} {next' : α → Build δ}
    (continued : ∀ value, Alike further (next value) (next' value)) :
    Alike further ((liftM outcome : Build α) >>= next) ((liftM outcome : Build α) >>= next') := by
  refine (alike_same outcome).bind ?_
  rintro value _ rfl
  exact continued value

theorem alike_mapM {f : α → Build γ} {f' : β → Build δ} {items : List α} {items' : List β}
    (all : List.Forall₂ (fun item item' => Alike further (f item) (f' item')) items items') :
    Alike (List.Forall₂ further) (items.mapM f) (items'.mapM f') := by
  induction all with
  | nil => exact alike_pure .nil
  | cons here _ ih =>
    rw [List.mapM_cons, List.mapM_cons]
    refine here.bind fun first first' both => ih.bind fun others others' rest => ?_
    exact alike_pure (.cons both rest)

theorem alike_log (logger message message' : Text) (level : LogLevel) :
    Alike Eq (log logger level message) (log logger level message') :=
  fun _ _ => .ok rfl

theorem alike_failFor (logger : Text) (omission : Omission) :
    Alike related (failFor logger omission : Build α) (failFor logger omission : Build β) :=
  fun _ _ => .error _

theorem alike_require (present : Bool) (logger : Text) (omission : Omission) :
    Alike Eq (require present logger omission) (require present logger omission) := by
  unfold require
  cases present with
  | true => exact alike_pure rfl
  | false => exact alike_failFor logger omission

/-- The results of computations that run alike are in the relation. -/
theorem Alike.of_yields {left : Build α} {right : Build β} (alike : Alike related left right) {result : α} {result' : β}
    (yields : left.Yields result) (yields' : right.Yields result') : related result result' := by
  obtain ⟨trace, after, done⟩ := yields
  obtain ⟨trace', after', done'⟩ := yields'
  have outcomes := alike trace trace'
  rw [done, done'] at outcomes
  cases outcomes with
  | ok both => exact both

end Build

end SqlCompose
