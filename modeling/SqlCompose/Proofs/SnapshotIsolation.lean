import Mathlib
import SqlCompose.Proofs.ReachedSessions
import SqlCompose.Proofs.Steadiness

/-!
# Isolation of finished queries

The containers in the values of a finished query are made with it, and no other finished query, no predicate and no chain has them. So whoever changes a container in place without having taken it out of a finished query leaves this query as it was.

That a container lies in no bound value of an object is said by rules that ask nothing else of the object.
-/

namespace SqlCompose

namespace Rules

/-- The rules for objects that bind no value with a container in it. -/
def avoiding (container : Label) : Rules where
  bound value := container ∉ value.containers
  other _ := True
  finished _ := True
  hands _ := True

/-- The rules for objects that have a value nowhere in them. -/
def without (part : Value) : Rules where
  bound value := part ∉ value.parts
  other value := part ∉ value.parts
  finished query := part ∉ query.text.parts ∧ ∀ value ∈ query.values, part ∉ value.parts
  hands _ := True

end Rules

namespace Session

/-- A value lies in a variable of a session or in one of its objects. -/
def Holds (session : Session) (part : Value) : Prop :=
  (∃ name value, session.bindings.lookup name = some value ∧ part ∈ value.parts) ∨
    ∃ label object, session.stored? label = some object ∧ ¬ object.Under (Rules.without part)

/-- What the containers of a finished query in a session are kept from. -/
structure Isolates (session : Session) (label : Label) (values : List Value) : Prop where
  queries : ∀ other text held others, session.Holds (.record other .builtQuery [text, .tuple held others]) → other ≠ label →
    ∀ container ∈ Value.containersOfAll values, container ∉ Value.containersOfAll others
  predicates : ∀ other text held others, session.Holds (.record other .predicate [text, .tuple held others]) →
    ∀ container ∈ Value.containersOfAll values, container ∉ Value.containersOfAll others
  objects : ∀ other object, session.stored? other = some object →
    ∀ container ∈ Value.containersOfAll values, object.Under (Rules.avoiding container)

end Session

/-! ### What custody says of it -/

namespace Custody

variable {custody : Custody} {stage : Stage} {session : Session}

private theorem without_of_everywhere {part : Value} (barred : ¬ custody.Admits stage part) (hands : Label → Prop) :
    (custody.rules stage hands).Implies (Rules.without part) where
  bound _ binds member := barred (binds.everywhere part member)
  other _ all member := barred (all part member)
  finished _ finishes := ⟨fun member => barred (finishes.sound.text part member), fun value inside member =>
    barred (finishes.sound.values value inside part member)⟩
  hands _ _ := trivial

theorem Reached.admits (reached : custody.Reached stage session) (named : custody.named) {part : Value} (holds : session.Holds part) :
    custody.Admits stage part := by
  by_contra barred
  rcases holds with ⟨name, value, given, member⟩ | ⟨label, object, given, holds⟩
  · exact barred (reached.bindings named name value given part member)
  · have seen := custody.seen_of_mine label (custody.mine_of_named named label)
    exact holds ((reached.objects label object given seen).mono (without_of_everywhere barred _))

private theorem avoiding_of_owns {container query : Label} (tracked : custody.tracked) (owns : stage.Owns (.query query) container)
    (hands : Label → Prop) : (custody.rules stage hands).Implies (Rules.avoiding container) where
  bound value binds member := by
    have bound := (binds.owned tracked container member).2.symm.trans owns.2
    cases bound
  other _ _ := trivial
  finished _ _ := trivial
  hands _ _ := trivial

theorem Reached.isolates (reached : custody.Reached stage session) (named : custody.named) (tracked : custody.tracked)
    {label held : Label} {text : Value} {values : List Value} (holds : session.Holds (.record label .builtQuery [text, .tuple held values])) :
    session.Isolates label values := by
  have owns := (reached.admits named holds).query tracked label text held values rfl
  refine ⟨fun other text' held' others holds' differ container member shared => ?_,
    fun other text' held' others holds' container member shared => ?_, fun other object given container member => ?_⟩
  · have owns' := (reached.admits named holds').query tracked other text' held' others rfl container shared
    have same := owns'.2.symm.trans (owns container member).2
    injection same with same
    injection same with same
    exact differ same
  · obtain ⟨value, inside, there⟩ := Value.mem_containersOfAll.mp shared
    have owns' := ((reached.admits named holds').predicate tracked other text' held' others rfl value inside).2 container there
    have same := owns'.2.symm.trans (owns container member).2
    cases same
  · have seen := custody.seen_of_mine other (custody.mine_of_named named other)
    exact (reached.objects other object given seen).mono (avoiding_of_owns tracked (owns container member) _)

end Custody

/-! ### Changes in place -/

namespace Session

open Act

theorem label?_refaced (faceOf : Label → Option ObjectFace) (value : Value) : (value.refaced faceOf).label? = value.label? := by
  cases value <;> rfl

private theorem leaves_valueOf (session : Session) (name : Text) : Leaves session (valueOf name) fun value =>
    ∃ given, session.bindings.lookup name = some given ∧ value.label? = given.label? := by
  refine (leaves_get session).bind fun _ _ here since => ?_
  obtain ⟨_, rfl⟩ := since
  dsimp only
  split
  · next given found => exact Keeps.pure fun _ _ => ⟨given, found, label?_refaced _ given⟩
  · exact Keeps.throw _

theorem steady_evaluate (literal : Literal) : Steady (evaluate literal) := fun session =>
  (leaves_get session).bind fun _ _ _ _ => leaves_build session _

/-- How a session goes on after a change in place of what a variable stands for: nothing has changed, or a container has that the variable stands for. -/
def Altered (session : Session) (target : Text) (after : Session) : Prop :=
  Since session () after ∨ ∃ value label change trace, session.bindings.lookup target = some value ∧ value.label? = some label ∧
    after = { session.change label change with trace }

private theorem altered_extend (session : Session) {target : Text} {about given : Value} (found : session.bindings.lookup target = some given)
    (same : about.label? = given.label?) (key : Option Value) (item : Value) {before : Session} (since : Since session () before) :
    session.Altered target ((extend about key item).run before).2 := by
  obtain ⟨trace, rfl⟩ := since
  unfold extend
  cases Value.extended key item about with
  | error error => exact .inl ⟨trace, rfl⟩
  | ok after =>
    cases labelled : about.label? with
    | none => exact .inl ⟨trace, rfl⟩
    | some label =>
      by_cases inside : item.holds label
      · left
        refine ⟨trace, ?_⟩
        simp only [inside]
        rfl
      · right
        refine ⟨given, label, fun value => ((Value.extended key item value).toOption).getD value, trace, found, same ▸ labelled, ?_⟩
        simp only [inside]
        rfl

theorem altered_answer (session : Session) (quiet : Bool) (target : Text) (key : Option Literal) (literal : Literal) :
    session.Altered target (session.answer quiet (.change target key literal)).2 := by
  have steadyKey : Steady (key.mapM evaluate) := fun other => by
    cases key with
    | none => exact Keeps.pure fun _ _ => trivial
    | some key => exact (steady_evaluate key other).bind fun _ _ _ _ => Keeps.pure fun _ _ => trivial
  have performed {before : Session} (since : Since session () before) :
      session.Altered target ((perform (.change target key literal)).run before).2 := by
    unfold perform
    refine (leaves_valueOf session target).lastly (fun _ _ => .inl) (fun _ about between since found => ?_) since
    obtain ⟨given, found, same⟩ := found
    refine (steadyKey session).lastly (fun _ _ => .inl) (fun _ key between since _ => ?_) since
    refine (steady_evaluate literal session).lastly (fun _ _ => .inl) (fun _ item between since _ => ?_) since
    rw [state_map]
    exact altered_extend session found same key item since
  have since : Since session () { session with trace := { session.trace with latest := [] } } := ⟨_, rfl⟩
  have altered := performed since
  unfold answer
  dsimp only
  split
  · next same => rwa [same] at altered
  · next same => rwa [same] at altered

/-- A value that can be bound, and none of whose containers is changed, stays as it is. -/
theorem Altered.lookup {session after : Session} {target : Text} (altered : session.Altered target after) {name : Text} {value : Value}
    (found : session.bindings.lookup name = some value)
    (kept : ∀ about label, session.bindings.lookup target = some about → about.label? = some label →
      ∀ change, value.changed label change = value) : after.bindings.lookup name = some value := by
  rcases altered with ⟨trace, rfl⟩ | ⟨about, label, change, trace, here, labelled, rfl⟩
  · exact found
  · exact (Session.binding_change session label change name).trans (by rw [found, Option.map_some, kept about label here labelled])

private theorem changed_query {label held changed : Label} {text : Value} {values : List Value} (isText : text.isText)
    (bindable : ∀ value ∈ values, value.fault? = none) (out : changed ∉ Value.containersOfAll values) (change : Value → Value) :
    (Value.record label .builtQuery [text, .tuple held values]).changed changed change =
      .record label .builtQuery [text, .tuple held values] := by
  have same : text.changed changed change = text := by cases text <;> first | rfl | cases isText
  simp only [Value.changed, Value.changedItems, same,
    Value.changedItems_of_not_mem change values (Value.faultItems?_eq_none.mpr bindable) out]

/-- After any script, and whatever its last step was: the containers of a finished query were made in the step that the query was made in, no other finished query, no predicate and no object shares them, and a change in place of anything else leaves the query as it is. -/
theorem Reachable.snapshots_isolated {session : Session} (reachable : session.Reachable False) (quiet : Bool) {step : Step}
    (sound : step.Sound False) {label held : Label} {text : Value} {values : List Value}
    (holds : (session.answer quiet step).2.Holds (.record label .builtQuery [text, .tuple held values])) :
    (session.trace.nextLabel ≤ label → ∀ container ∈ Value.containersOfAll values, session.trace.nextLabel ≤ container) ∧
      (session.answer quiet step).2.Isolates label values ∧
      (text.isText → (∀ value ∈ values, value.fault? = none) → ∀ name,
        (session.answer quiet step).2.bindings.lookup name = some (.record label .builtQuery [text, .tuple held values]) →
        ∀ later target key literal,
        (∀ about changed, (session.answer quiet step).2.bindings.lookup target = some about → about.label? = some changed →
          changed ∉ Value.containersOfAll values) →
        ((session.answer quiet step).2.answer later (.change target key literal)).2.bindings.lookup name =
          some (.record label .builtQuery [text, .tuple held values])) := by
  have untracked : False → ¬ True := False.elim
  obtain ⟨before, reached⟩ := Custody.exists_reached reachable untracked
  obtain ⟨after, ahead, there⟩ := Custody.exists_reached_answer trivial untracked reached quiet sound
  refine ⟨fun made container member => ?_, there.isolates trivial trivial holds, fun isText bindable name found later target key literal out => ?_⟩
  · have owns := (there.admits trivial holds).query trivial label text held values rfl container member
    rw [reached.next] at made ⊢
    exact owns.not_before ahead made
  · exact (altered_answer _ later target key literal).lookup found fun about changed here labelled change =>
      changed_query isText bindable (out about changed here labelled) change

/-- A session in which a list has been given a name. -/
private def named : Session :=
  (answer {} true (.assign "x" (.list [.leaf (.int 1)]))).2

/-- A finished query is made over a list that has a name. -/
private def making : Step :=
  .create "BuiltQuery" [.leaf (.text "SELECT $1"), .list [.reference "x"]] [] (some "b")

/-- The query does not change with the list that it was made from. -/
theorem snapshots_isolated_from_source :
    ((named.answer true making).2.answer true (.change "x" none (.leaf (.int 2)))).2.bindings.lookup ("b" : Text) =
      some (.record 6 .builtQuery [.text "SELECT $1", .tuple 5 [.list 4 [.int 1]]]) := by
  have reachable : named.Reachable False := .step (.start {} trivial trivial) true ⟨trivial, trivial⟩
  have sound : making.Sound False := by
    refine ⟨List.forall_mem_cons.mpr ⟨trivial, List.forall_mem_singleton.mpr ⟨trivial, trivial⟩⟩, forall_nothing⟩
  have found : (named.answer true making).2.bindings.lookup ("b" : Text) =
      some (.record 6 .builtQuery [.text "SELECT $1", .tuple 5 [.list 4 [.int 1]]]) := rfl
  have holds : (named.answer true making).2.Holds (.record 6 .builtQuery [.text "SELECT $1", .tuple 5 [.list 4 [.int 1]]]) :=
    .inl ⟨_, _, found, List.mem_cons_self⟩
  refine (reachable.snapshots_isolated true sound holds).2.2 rfl (List.forall_mem_singleton.mpr rfl) "b" found true "x" none _ ?_
  intro about changed here labelled
  have list : (named.answer true making).2.bindings.lookup ("x" : Text) = some (.list 0 [.int 1]) := rfl
  rw [list] at here
  cases here
  cases labelled
  decide

end Session

end SqlCompose
