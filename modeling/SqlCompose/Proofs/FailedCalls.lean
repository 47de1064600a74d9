import Mathlib
import SqlCompose.Proofs.FailedMethods

/-!
# Calls that fail

What is left of a call that fails, whatever object it is made on: of a single change nothing, of several those in front of the first bad entry, and of a callback that fails what the callback itself has done.
-/

namespace SqlCompose.Session

open Act

/-! ### Callbacks -/

section Callbacks

variable {session after : Session} {error : Error}

/-- Hands a fresh chain to a callback, under the name that this has for it. -/
def handing (parameter : Text) : Act Unit := do
  Act.bind parameter (← Act.new (.chain {}))

theorem reads_valueOf (name : Text) : Reads (Act.valueOf name) fun _ => True :=
  reads_get.bind fun session _ => by
    split
    · exact reads_pure trivial
    · exact reads_throw _

theorem reads_populated (fresh returned : Value) : Reads (populated fresh returned) fun _ => True :=
  (reads_object? _).bind fun found _ => by
    split
    · exact reads_pure trivial
    · exact reads_pure trivial

theorem bindResult_sure {binding : Option Text} {target : Value} {outcome : Outcome} :
    ¬ (bindResult binding target outcome).Runs session (.error error) after := by
  have bound {name : Text} {value : Value} : ¬ (Act.bind name value).Runs session (.error error) after := by
    intro run
    cases congrArg Prod.fst run
  unfold bindResult
  split
  · exact pure_sure
  · exact bound
  · exact bound

private theorem valueOf_leaves {name : Text} {outcome : Except Error Value} (run : (Act.valueOf name).Runs session outcome after) :
    after = session := by
  have rest := runs_get.bind_iff.mp run
  split at rest
  · exact (runs_pure.mp rest).2
  · exact (runs_throw.mp rest).2

private theorem populatedStatement_leaves {target : Value} {groups : Bool} {outcome : Except Error Label}
    (run : (populatedStatement target groups).Runs session outcome after) : after = session := by
  unfold populatedStatement Act.object? at run
  split at run
  · rw [bind_assoc] at run
    obtain ⟨object, between, found, rest⟩ | ⟨_, missing, -⟩ := run.bind
    · obtain ⟨rfl, -⟩ := found.object
      rw [pure_bind] at rest
      split at rest
      · cases groups
        all_goals
          simp only [Bool.false_eq_true, ite_false, ite_true] at rest
          split at rest
          · exact (runs_pure.mp rest).2
          · exact (runs_throw.mp rest).2
      · exact (runs_throw.mp rest).2
    · exact missing.object.1
  · rw [pure_bind] at run
    exact (runs_throw.mp run).2

/-- A fresh chain is put in a place where nothing else is. -/
private theorem stored?_of_handing {parameter : Text} {started : Session} (run : (handing parameter).Runs session (.ok ()) started)
    {label : Label} (other : label ≠ session.trace.nextLabel) : started.stored? label = session.stored? label := by
  have handed : (handing parameter).Runs session (.ok ()) _ := rfl
  obtain ⟨-, rfl⟩ := run.unique handed
  change (session.put session.trace.nextLabel (.chain {})).stored? label = _
  rw [stored?_put, if_neg other]

theorem stored?_of_failedPopulating {target parameter : Text} {groups : Bool} {steps : List Step} {returns binding : Option Text}
    {started : Session} (run : (perform (.populate target groups parameter steps returns binding)).Runs session (.error error) after)
    (handed : (handing parameter).Runs session (.ok ()) started) {label : Label} (other : label ≠ session.trace.nextLabel)
    (left : ∀ outcome between, (performAll steps).Runs started outcome between → between.stored? label = started.stored? label) :
    after.stored? label = session.stored? label := by
  have given : started.stored? label = session.stored? label := stored?_of_handing handed other
  have unchanged {session after : Session} (same : session.SameState after) : after.stored? label = session.stored? label := by
    obtain ⟨_, rfl⟩ := same
    rfl
  rw [perform] at run
  obtain ⟨targeted, between, read, populating⟩ | ⟨_, failed, -⟩ := run.bind
  on_goal 2 => exact valueOf_leaves failed ▸ rfl
  obtain rfl : session = between := (valueOf_leaves read).symm
  obtain ⟨about, between, found, calling⟩ | ⟨_, failed, -⟩ := populating.bind
  on_goal 2 => exact populatedStatement_leaves failed ▸ rfl
  obtain rfl : session = between := (populatedStatement_leaves found).symm
  obtain ⟨fresh, put, made, binds⟩ := handed.bind_ok
  rw [made.bind_iff, binds.bind_iff] at calling
  obtain ⟨_, called, steps, behind⟩ | ⟨_, failed, -⟩ := calling.bind
  on_goal 2 => exact (left _ _ failed).trans given
  -- behind the callback things are read, and one change is made
  have ending (returned : Value) : Harmless (do
      let conditions ← populated fresh returned
      editStatement about (if groups = true then Statement.Edit.groupFilter conditions else Statement.Edit.filter conditions)
      bindResult binding targeted Outcome.itself
      return Outcome.itself) := by
    refine (reads_populated fresh returned).harmless_bind fun conditions => ?_
    refine (harmless_editStatement about _).andThen fun _ session error after run => ?_
    obtain ⟨_, _, _, last⟩ | ⟨_, failed, -⟩ := run.bind
    · exact pure_sure last
    · exact bindResult_sure failed
  have same : called.SameState after := by
    cases returns with
    | none => exact ending .null _ _ _ behind
    | some name => exact ((reads_valueOf name).harmless_bind ending) _ _ _ behind
  exact (unchanged same).trans ((left _ _ steps).trans given)

end Callbacks

/-- A configuring call that fails leaves the session as it was, or, of several entries, what the same call on those in front of the first bad one leaves. If it fails in a callback or behind it, it leaves what the callback leaves alone. -/
theorem failed_configuration (session : Session) :
    (∀ label object name values named error after, session.object? label = some object → name ∈ configuring object →
      ((objectMethods label object).call name values named).Runs session (.error error) after →
      session.Remains (objectMethods label object) error after
        (((objectMethods label object).arguments? name values named).bind (severalCall? object name))) ∧
    ∀ target groups parameter steps returns binding error after started label,
      (perform (.populate target groups parameter steps returns binding)).Runs session (.error error) after →
      (handing parameter).Runs session (.ok ()) started → label ≠ session.trace.nextLabel →
      (∀ outcome between, (performAll steps).Runs started outcome between → between.stored? label = started.stored? label) →
      after.stored? label = session.stored? label := by
  refine ⟨fun label object name values named error after shown configures run => ?_,
    fun _ _ _ _ _ _ _ _ _ _ run handed other left => stored?_of_failedPopulating run handed other left⟩
  obtain ⟨-, rfl, missing⟩ | ⟨method, arguments, found, bound, called⟩ := runs_call run
  · have none : (objectMethods label object).arguments? name values named = none := by
      refine Option.bind_eq_none_iff.mpr fun method found => ?_
      cases bound : method.signature.bind values named with
      | error _ => rfl
      | ok arguments => exact absurd bound (missing method found arguments)
    rw [none]
    exact .refl _
  · have read : (objectMethods label object).arguments? name values named = some arguments := by
      rw [Methods.arguments?, found, Option.bind_some, bound]
      rfl
    rw [read, Option.bind_some]
    cases object with
    | chain chain => exact remains_chain found configures called
    | query query => exact remains_query shown found configures called
    | cte cte => exact remains_cte found configures called
    | ctes ctes => exact remains_ctes found configures called
    | column column => exact remains_column found configures called
    | table statement => exact remains_table found configures called
    | queryMaker _ | tableMaker _ => cases configures

private def orderless : Query :=
  .of (.select { table := .text "t" })

private def orderlessFace : ObjectFace :=
  ⟨"SelectQuery", "<SelectQuery>", true⟩

/-- A session that has one statement, under a name. -/
private def single : Session :=
  ⟨[(0, .query orderless)], [("q", .object 0 orderlessFace)], {}, ⟨1, []⟩⟩

/-- Three entries of an order, of which the second is a pair without items. -/
private def entries : List Value :=
  [.text "a", .tuple 0 [], .text "b"]

/-- A callback that asks its chain for something that it has not. -/
private def failing : Step :=
  .populate "q" false "s" [.read "s" "limit" none none] none none

/-- Of an order with a bad second entry those in front of a bad one are left, and a callback that fails leaves the statement. -/
theorem failed_configuration_of_order : ∃ after called,
    ((objectMethods 0 (.query orderless)).call "order_by" [.list 0 entries] []).Runs single (.error .badArgument) after ∧
    single.Remains (objectMethods 0 (.query orderless)) .badArgument after
      (some ⟨entries, fun front => some ("order_by", [.list 0 front, .text "ASC"])⟩) ∧
    (perform failing).Runs single (.error .attributeMissing) called ∧ called.stored? 0 = single.stored? 0 := by
  obtain ⟨after, run⟩ : ∃ after, ((objectMethods 0 (.query orderless)).call "order_by" [.list 0 entries] []).Runs single
      (.error .badArgument) after := ⟨_, rfl⟩
  obtain ⟨called, populates⟩ : ∃ called, (perform failing).Runs single (.error .attributeMissing) called := ⟨_, rfl⟩
  obtain ⟨started, handed⟩ : ∃ started, (handing "s").Runs single (.ok ()) started := ⟨_, rfl⟩
  obtain ⟨error, left, steps, kept⟩ : ∃ error left, (performAll [.read "s" "limit" none none]).Runs started (.error error) left ∧
      left.stored? 0 = started.stored? 0 := by
    obtain ⟨-, rfl⟩ := handed.unique (show (handing "s").Runs single (.ok ()) _ from rfl)
    exact ⟨_, _, rfl, rfl⟩
  refine ⟨after, called, run, ?_, populates, ?_⟩
  · have configures : ("order_by" : Text) ∈ configuring (.query orderless) := by decide +kernel
    have read : (objectMethods 0 (.query orderless)).arguments? "order_by" [.list 0 entries] [] =
        some ⟨[("field", .list 0 entries), ("direction", .text "ASC")], []⟩ := rfl
    have remains := (failed_configuration single).1 0 (.query orderless) "order_by" [.list 0 entries] [] _ after rfl configures run
    rw [read] at remains
    exact remains
  · refine (failed_configuration single).2 "q" false "s" _ none none _ called started 0 populates handed (by decide) ?_
    intro outcome between done
    obtain ⟨-, rfl⟩ := steps.unique done
    exact kept

end SqlCompose.Session
