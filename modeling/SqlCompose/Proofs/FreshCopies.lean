import Mathlib
import SqlCompose.Proofs.Containers
import SqlCompose.Proofs.Keeping
import SqlCompose.Condition

/-!
# What is built over fresh copies

Predicates and finished queries are made over copies of their values. So the containers in them have labels that were free when the making began, whatever values it began with, and all records and objects in them lay in these values.

Building is at a stage when so many labels have been given out.
-/

namespace SqlCompose

namespace Build

variable {α : Type} {first : Label}

/-- The labels that have been given out so far. -/
def Reached (next : Label) (trace : Trace) : Prop :=
  trace.nextLabel = next

/-- Once the labels below a first one are given out, the building gives results of some sort, with the next label. -/
abbrev Gives (first : Label) (action : Build α) (result : Label → α → Prop) : Prop :=
  Keeps Reached first action result

theorem gives_freshLabel : Gives first freshLabel fun next label => first ≤ label ∧ label < next := by
  rintro before ahead trace rfl
  refine ⟨trace.nextLabel + 1, Nat.le_succ _, rfl, fun label same => ?_⟩
  cases same
  exact ⟨ahead, Nat.lt_succ_self _⟩

theorem gives_log (logger message : Text) (level : LogLevel) : Gives first (log logger level message) fun _ _ => True :=
  fun before _ _ here => ⟨before, le_rfl, here, fun _ _ => trivial⟩

theorem gives_failFor {result : Label → α → Prop} (logger : Text) (omission : Omission) :
    Gives first (failFor logger omission) result :=
  (gives_log logger _ _).bind fun _ _ _ _ => Keeps.throw _

theorem gives_require (present : Bool) (logger : Text) (omission : Omission) :
    Gives first (require present logger omission) fun _ _ => True := by
  unfold require
  split
  · exact Keeps.pure fun _ _ => trivial
  · exact gives_failFor logger omission

/-- Building without regard to what comes of it. -/
def Quiet (action : Build α) : Prop :=
  ∀ first, Gives first action fun _ _ => True

section Quiet

variable {β : Type}

theorem quiet_pure (value : α) : Quiet (pure value : Build α) :=
  fun _ => Keeps.pure fun _ _ => trivial

theorem quiet_throw (error : Error) : Quiet (throw error : Build α) :=
  fun _ => Keeps.throw error

theorem quiet_lift (outcome : Except Error α) : Quiet (liftM outcome) :=
  fun _ => Keeps.lift fun _ _ _ _ => trivial

theorem quiet_after {outcome : Except Error α} {next : α → Build β} (quiet : ∀ value, Quiet (next value)) :
    Quiet (liftM outcome >>= next) :=
  fun first => Keeps.after fun value _ => quiet value first

theorem Quiet.bind {action : Build α} {next : α → Build β} (quiet : Quiet action) (further : ∀ value, Quiet (next value)) :
    Quiet (action >>= next) :=
  fun first => (quiet first).bind fun between _ value _ => further value between

theorem quiet_mapM {f : β → Build α} {items : List β} (each : ∀ item ∈ items, Quiet (f item)) : Quiet (items.mapM f) :=
  fun first => (Keeps.mapM (fun _ _ _ _ good => good) fun item member => each item member first).imp fun _ _ _ _ => trivial

theorem quiet_of_gives {action : Build α} {result : Label → Label → α → Prop} (gives : ∀ first, Gives first action (result first)) :
    Quiet action :=
  fun first => (gives first).imp fun _ _ _ _ => trivial

end Quiet

end Build

open Build

namespace Value

/-- Values of which something holds everywhere. -/
abbrev AllEverywhere (holds : Value → Prop) (values : List Value) : Prop :=
  ∀ value ∈ values, value.Everywhere holds

/-- A value that can be bound, with containers whose labels have been given out from a first one on. -/
structure Made (first next : Label) (value : Value) : Prop where
  bindable : value.fault? = none
  own : ∀ label ∈ value.containers, first ≤ label ∧ label < next

/-- Values of which something holds everywhere, with containers whose labels have been given out from a first one on. -/
structure Fresh (holds : Value → Prop) (first next : Label) (values : List Value) : Prop where
  sound : AllEverywhere holds values
  own : ∀ label ∈ containersOfAll values, first ≤ label ∧ label < next

variable {holds : Value → Prop} {first : Label} {values : List Value}

theorem allEverywhere_nil : AllEverywhere holds [] :=
  fun _ member => absurd member List.not_mem_nil

theorem everywhere_text (free : OfHandles holds) (text : Text) : (Value.text text).Everywhere holds :=
  List.forall_mem_singleton.mpr (free.other rfl)

theorem Made.later {next next' : Label} {value : Value} (made : value.Made first next) (after : next ≤ next') :
    value.Made first next' :=
  ⟨made.bindable, fun label member => ⟨(made.own label member).1, (made.own label member).2.trans_le after⟩⟩

theorem Fresh.later {next next' : Label} (fresh : Fresh holds first next values) (after : next ≤ next') :
    Fresh holds first next' values :=
  ⟨fresh.sound, fun label member => ⟨(fresh.own label member).1, (fresh.own label member).2.trans_le after⟩⟩

theorem gives_copyAll (free : OfHandles holds) (sound : AllEverywhere holds values) :
    Gives first (copyAll values) (Fresh holds first) := by
  rintro before ahead trace rfl
  have given := givenOut_copyItems trace.nextLabel values
  refine ⟨(copyItems trace.nextLabel values).2, given.grows, rfl, fun copies same => ?_⟩
  cases same
  exact ⟨Everywhere.copyItems free _ values sound, fun label member =>
    ⟨ahead.trans (given.within label member).1, (given.within label member).2⟩⟩

theorem faultItems?_eq_none {values : List Value} : faultItems? values = none ↔ ∀ value ∈ values, value.fault? = none := by
  induction values with
  | nil => simp [faultItems?]
  | cons value values ih => rw [faultItems?_cons, List.forall_mem_cons, ih]

theorem sound_of_checkAll {values copies : List Value} (yields : (checkAll values).Yields copies) : faultItems? copies = none := by
  unfold checkAll at yields
  split at yields
  · exact absurd yields not_yields_throw
  · next sound =>
    obtain ⟨trace, after, done⟩ := yields
    cases done
    rw [faultItems?_copyItems, sound]

/-- Values that are taken over are copied, and can be bound. -/
theorem gives_checkAll (values : List Value) :
    Gives first (checkAll values) fun next copies => ∀ copy ∈ copies, copy.Made first next := by
  unfold checkAll
  split
  · exact Keeps.throw _
  · next sound =>
    rintro before ahead trace rfl
    have given := givenOut_copyItems trace.nextLabel values
    refine ⟨(copyItems trace.nextLabel values).2, given.grows, rfl, fun copies same => ?_⟩
    cases same
    intro copy member
    have bindable := faultItems?_eq_none.mp ((faultItems?_copyItems trace.nextLabel values).trans sound) copy member
    refine ⟨bindable, fun label inside => ?_⟩
    have within := given.within label (mem_containersOfAll.mpr ⟨copy, member, inside⟩)
    exact ⟨ahead.trans within.1, within.2⟩

theorem gives_check (value : Value) : Gives first value.check (Made first) := by
  unfold check
  split
  · exact Keeps.throw _
  · next sound =>
    rintro before ahead trace rfl
    have given := givenOut_copyFrom trace.nextLabel value
    refine ⟨(copyFrom trace.nextLabel value).2, given.grows, rfl, fun copy same => ?_⟩
    cases same
    exact ⟨(fault?_copyFrom _ value).trans sound, fun label member =>
      ⟨ahead.trans (given.within label member).1, (given.within label member).2⟩⟩

end Value

variable {holds : Value → Prop} {first : Label}

namespace Predicate

theorem sound_of_make {text : Wording} {values : List Value} {predicate : Predicate} (made : (make text values).Yields predicate) :
    Value.faultItems? predicate.values = none := by
  obtain ⟨copies, copied, further⟩ := made.bind
  simp only at further
  split at further
  · rw [← yields_pure.mp further]
    exact Value.sound_of_checkAll copied
  · exact absurd further not_yields_throw

theorem gives_make (text : Wording) (values : List Value) :
    Gives first (make text values) fun next predicate => ∀ value ∈ predicate.values, value.Made first next := by
  refine (Value.gives_checkAll values).bind fun between ahead copies made => ?_
  dsimp only
  split
  · exact Keeps.pure fun after further value member => (made value member).later further
  · exact Keeps.throw _

theorem gives_combine (connective : Connective) (left right : Predicate) :
    Gives first (combine connective left right) fun next predicate => ∀ value ∈ predicate.values, value.Made first next :=
  gives_make _ _

end Predicate

namespace BuiltQuery

/-- Something holds everywhere in the text and in the values of a finished query. -/
structure Sound (holds : Value → Prop) (query : BuiltQuery) : Prop where
  text : query.text.Everywhere holds
  values : Value.AllEverywhere holds query.values

/-- A finished query with a sound text, over copies of its own. -/
structure Fresh (holds : Value → Prop) (first next : Label) (query : BuiltQuery) : Prop where
  text : query.text.Everywhere holds
  values : Value.Fresh holds first next query.values

theorem Fresh.sound {next : Label} {query : BuiltQuery} (fresh : query.Fresh holds first next) : query.Sound holds :=
  ⟨fresh.text, fresh.values.sound⟩

theorem gives_ofParts (free : Value.OfHandles holds) {text : Value} (readable : text.Everywhere holds) {values : List Value}
    (sound : Value.AllEverywhere holds values) : Gives first (ofParts text values) (Fresh holds first) :=
  (Value.gives_copyAll free sound).bind fun _ _ _ fresh => Keeps.pure fun _ further => ⟨readable, fresh.later further⟩

theorem gives_make (free : Value.OfHandles holds) (text : Text) {values : List Value} (sound : Value.AllEverywhere holds values) :
    Gives first (make text values) (Fresh holds first) :=
  gives_ofParts free (Value.everywhere_text free text) sound

end BuiltQuery

end SqlCompose
