import Mathlib
import SqlCompose.Proofs.CustodyCreation

/-!
# Moves in custody

Whatever a script does with the objects of a session it does by moves: it creates something, calls a method, reads an attribute, or gives a statement the conditions that a populating step has ended with. A move is allowed if it works on what is one's own, with whatever it is given that may be held.
-/

namespace SqlCompose

open Build

namespace Session

/-- What is done with the objects of a session. -/
inductive Move where
  | create (kind : Text) (values : List Value) (named : List (Text × Value))
  | call (target : Value) (method : Text) (values : List Value) (named : List (Text × Value))
  | read (target : Value) (name : Text)
  | adopt (target : Value) (groups : Bool) (fresh returned : Value)

namespace Move

def perform : Move → Act Outcome
  | create kind values named => creators.call kind values named
  | call target method values named => invoke target method values named
  | read target name => return .value (← readAttribute target name)
  | adopt target groups fresh returned => do
    let label ← populatedStatement target groups
    let conditions ← populated fresh returned
    editStatement label (if groups then .groupFilter conditions else .filter conditions)
    return .itself

/-- What a move works on, and what it leaves in the hands of its caller. -/
def handles : Move → List Value
  | create _ _ _ => []
  | call target _ _ _ | read target _ => [target]
  | adopt target _ fresh returned => [target, fresh, returned]

/-- What a move is given. -/
def arguments : Move → List Value
  | create _ values named | call _ _ values named => values ++ named.map (·.2)
  | read _ _ | adopt _ _ _ _ => []

end Move

end Session

namespace Custody

variable {custody : Custody} {stage : Stage}

/-! ### Attributes -/

section Attributes

/-- What can be read may be held. -/
def Shows (custody : Custody) (stage : Stage) (attributes : Session.Attributes) : Prop :=
  ∀ entry ∈ attributes, custody.Allows stage entry.2 fun after value => value.Everywhere (custody.Admits after)

private theorem allows_pure {value : Value} (all : value.Everywhere (custody.Admits stage)) :
    custody.Allows stage (pure value) fun after value => value.Everywhere (custody.Admits after) :=
  Keeps.pure fun _ further => admits_later all further

private theorem allows_newList {values : List Value} (all : Value.AllEverywhere (custody.Admits stage) values) :
    custody.Allows stage (Act.newList values) fun after value => value.Everywhere (custody.Admits after) :=
  allows_label fun _ label ahead _ _ => Keeps.pure fun _ further =>
    Value.everywhere_newList free label fun value member => admits_later (all value member) (ahead.trans further)

private theorem allows_newTuple {values : List Value} (all : Value.AllEverywhere (custody.Admits stage) values) :
    custody.Allows stage (Act.newTuple values) fun after value => value.Everywhere (custody.Admits after) :=
  allows_label fun _ label ahead _ _ => Keeps.pure fun _ further =>
    Value.everywhere_newTuple free label fun value member => admits_later (all value member) (ahead.trans further)

private theorem allows_entry {α : Type} [Keyword α] (member : α) :
    custody.Allows stage (pure (Session.entryOf member)) fun after value => value.Everywhere (custody.Admits after) :=
  allows_pure (Value.everywhere_entry free _)

private theorem allows_flag (flag : Bool) :
    custody.Allows stage (pure (Value.bool flag)) fun after value => value.Everywhere (custody.Admits after) :=
  allows_pure (Value.everywhere_bool free flag)

private theorem statement_shown {statement : Statement Query} (own : statement.Under (custody.rules stage custody.seen)) :
    custody.Shows stage (Session.statementAttributes statement) := by
  refine List.forall_mem_append.mpr ⟨List.forall_mem_append.mpr ⟨?_, ?_⟩, ?_⟩
  · cases given : statement.settings? with
    | none => exact forall_nothing
    | some settings =>
      have good := own.settings settings given
      exact List.forall_mem_cons.mpr ⟨allows_entry _, List.forall_mem_cons.mpr ⟨allows_pure good.compact,
        List.forall_mem_singleton.mpr (allows_pure good.deep)⟩⟩
  · split
    · exact List.forall_mem_singleton.mpr (allows_entry _)
    · exact forall_nothing
  · have names := own.ownNames
    cases statement with
    | select s =>
      exact List.forall_mem_cons.mpr ⟨allows_pure (names _ List.mem_cons_self),
        List.forall_mem_singleton.mpr (allows_newList (List.forall_mem_map.mpr own.fields))⟩
    | compound s => exact List.forall_mem_singleton.mpr (allows_pure (names _ List.mem_cons_self))
    | _ => exact forall_nothing

private theorem column_shown {column : Column} (under : (Object.column column).Under (custody.rules stage custody.seen)) :
    custody.Shows stage (Session.columnAttributes column) := by
  have values : ∀ value ∈ column.values, value.Everywhere (custody.Admits stage) := under
  simp only [Column.values, List.forall_mem_append, List.forall_mem_cons] at values
  obtain ⟨⟨name, type, standard, condition, _⟩, key⟩ := values
  simp only [Shows, Session.columnAttributes, List.forall_mem_cons]
  refine ⟨allows_pure name, allows_pure type, allows_flag _, allows_flag _, allows_flag _, allows_pure standard, allows_pure condition,
    allows_flag _, ?_, forall_nothing⟩
  split
  · exact allows_pure (Value.everywhere_null free)
  · next given =>
    rw [given] at key
    simp only [Option.toList_some, List.flatMap_cons, List.flatMap_nil, List.append_nil, List.forall_mem_cons] at key
    have written (action : Option ReferentialAction) : (ForeignKey.actionValue action).Everywhere (custody.Admits stage) := by
      cases action with
      | none => exact Value.everywhere_null free
      | some action => exact Value.everywhere_entry free _
    refine allows_label fun _ label ahead _ _ => Keeps.pure fun _ further => ?_
    refine admits_later (Value.everywhere_record.mpr ⟨free.other rfl, ?_⟩) (ahead.trans further)
    exact List.forall_mem_cons.mpr ⟨key.1, List.forall_mem_cons.mpr ⟨key.2.1, List.forall_mem_cons.mpr ⟨written _,
      List.forall_mem_singleton.mpr (written _)⟩⟩⟩

private theorem table_shown {statement : TableStatement Value} (under : (Object.table statement).Under (custody.rules stage custody.seen)) :
    custody.Shows stage (Session.tableAttributes statement) := by
  refine List.forall_mem_append.mpr ⟨?_, ?_⟩
  · refine List.forall_mem_cons.mpr ⟨allows_pure (under.1 _ ?_), List.forall_mem_singleton.mpr (allows_entry _)⟩
    cases statement <;> simp [TableStatement.names, TableStatement.target]
  · split
    · exact List.forall_mem_singleton.mpr (allows_newList under.2)
    · exact forall_nothing

private theorem objectAttributes_shown {object : Object} (under : object.Under (custody.rules stage custody.seen)) :
    custody.Shows stage (Session.objectAttributes object) := by
  cases object with
  | chain c =>
    refine List.forall_mem_cons.mpr ⟨allows_newList ?_, List.forall_mem_singleton.mpr (allows_flag _)⟩
    intro value member
    obtain ⟨link, inside, there⟩ := List.mem_flatMap.mp member
    exact (under link inside value there).everywhere
  | query q => exact statement_shown (by obtain ⟨own, _⟩ := under.1; exact own)
  | cte c => exact List.forall_mem_cons.mpr ⟨allows_pure under.name, List.forall_mem_singleton.mpr (allows_entry _)⟩
  | ctes cs =>
    exact List.forall_mem_cons.mpr ⟨allows_newList (List.forall_mem_map.mpr fun c member => (under c member).name),
      List.forall_mem_singleton.mpr (allows_entry _)⟩
  | column c => exact column_shown under
  | table t => exact table_shown under
  | queryMaker defaults =>
    exact List.forall_mem_cons.mpr ⟨allows_entry _, List.forall_mem_cons.mpr ⟨allows_pure under.1, List.forall_mem_cons.mpr
      ⟨allows_pure under.2, List.forall_mem_singleton.mpr (allows_new (.tableMaker defaults.flavor) trivial)⟩⟩⟩
  | tableMaker flavor => exact List.forall_mem_singleton.mpr (allows_entry _)

private theorem valueAttributes_shown {value : Value} (all : value.Everywhere (custody.Admits stage)) :
    custody.Shows stage (Session.valueAttributes value) := by
  unfold Session.valueAttributes
  split
  · next e =>
    refine List.forall_mem_append.mpr ⟨List.forall_mem_cons.mpr ⟨allows_pure (Value.everywhere_text free _),
      List.forall_mem_singleton.mpr (allows_pure (Value.everywhere_text free _))⟩, ?_⟩
    unfold Session.quoteAttributes
    split
    · exact List.forall_mem_singleton.mpr (allows_newTuple (List.forall_mem_cons.mpr ⟨Value.everywhere_text free _,
        List.forall_mem_singleton.mpr (Value.everywhere_text free _)⟩))
    · exact forall_nothing
  · next kind fields =>
    have inside := (Value.everywhere_record.mp all).2
    refine List.forall_mem_append.mpr ⟨?_, ?_⟩
    · rintro ⟨name, action⟩ member
      obtain ⟨field, there, rfl⟩ := List.mem_map.mp (List.of_mem_zip member).2
      exact allows_pure (inside field there)
    · split
      · exact List.forall_mem_singleton.mpr (allows_flag _)
      · exact forall_nothing
  · exact forall_nothing

theorem allows_attributesOf {value : Value} (all : value.Everywhere (custody.Admits stage)) :
    custody.Allows stage (Session.attributesOf value) custody.Shows := by
  refine (allows_object? all).bind fun between ahead found good => ?_
  cases found with
  | some found =>
    obtain ⟨label, object⟩ := found
    have shown := objectAttributes_shown (good label object rfl).2.2.2.1
    exact Keeps.pure fun _ further entry member => (shown entry member).mono further
  | none =>
    have shown := valueAttributes_shown (admits_later all ahead)
    exact Keeps.pure fun _ further entry member => (shown entry member).mono further

theorem allows_readAttribute {value : Value} (all : value.Everywhere (custody.Admits stage)) (name : Text) :
    custody.Allows stage (Session.readAttribute value name) fun after value => value.Everywhere (custody.Admits after) := by
  refine (allows_attributesOf all).bind fun between _ attributes shown => ?_
  split
  · next found =>
    exact shown _ (mem_of_lookup found)
  · exact Keeps.throw _

end Attributes

/-! ### Calls -/

section Calls

/-- What refers to an object refers to one of one's own. -/
def OwnsHandle (custody : Custody) (value : Value) : Prop :=
  ∀ label face, value = .object label face → custody.mine label

theorem objectMethods_permitted {label : Label} (mine : custody.mine label) {object : Object}
    (under : object.Under (custody.rules stage custody.mine)) : ∀ entry ∈ Session.objectMethods label object, custody.Permits stage entry.2 := by
  cases object with
  | chain c => exact chainMethods_permitted mine under
  | query q => exact queryMethods_permitted mine under
  | cte c => exact cteMethods_permitted mine under
  | ctes cs => exact cteSetMethods_permitted mine under
  | column c => exact columnMethods_permitted mine under
  | table t => exact tableMethods_permitted mine under
  | queryMaker defaults => exact queryMakerMethods_permitted under
  | tableMaker flavor => exact tableMakerMethods_permitted flavor

theorem Permits.later {method : Method (Act Outcome)} (permits : custody.Permits stage method) {stage' : Stage} (ahead : stage ≤ stage') :
    custody.Permits stage' method :=
  ⟨permits.standard, fun after further => permits.run after (ahead.trans further)⟩

variable {target : Value} (all : target.Everywhere (custody.Admits stage)) (own : custody.OwnsHandle target)
include all own

private theorem allows_methodsOf : custody.Allows stage (Session.methodsOf target) fun after methods =>
    ∀ entry ∈ methods, custody.Permits after entry.2 := by
  refine (allows_object? all).bind fun between ahead found good => ?_
  cases found with
  | some found =>
    obtain ⟨label, object⟩ := found
    obtain ⟨_, _, ⟨face, same⟩, _, under⟩ := good label object rfl
    have mine := own label face same
    exact Keeps.pure fun _ further entry member => (objectMethods_permitted mine (under mine) entry member).later further
  | none =>
    exact Keeps.pure fun _ further entry member => (recordMethods_permitted all entry member).later (ahead.trans further)

theorem allows_invoke (method : Text) {values : List Value} (given : Value.AllEverywhere (custody.Admits stage) values)
    {named : List (Text × Value)} (givenNamed : ∀ entry ∈ named, entry.2.Everywhere (custody.Admits stage)) :
    custody.Allows stage (Session.invoke target method values named) custody.Grants := by
  refine (allows_methodsOf all own).bind fun between ahead methods permits => ?_
  refine (allows_attributesOf (admits_later all ahead)).bind fun between' ahead' _ _ => ?_
  have called : custody.Allows between' (methods.call method values named) custody.Grants :=
    allows_call (fun entry member => (permits entry member).later ahead') method
      (fun value member => admits_later (given value member) (ahead.trans ahead'))
      fun entry member => admits_later (givenNamed entry member) (ahead.trans ahead')
  dsimp only
  split
  · exact Keeps.throw _
  · split
    · exact Keeps.throw _
    · exact called

/-! ### Populating -/

theorem allows_populatedStatement (groups : Bool) : custody.Allows stage (Session.populatedStatement target groups) fun after label =>
    custody.mine label ∧ label < after.next := by
  refine (allows_object? all).bind fun between _ found good => ?_
  split
  · next label q =>
    obtain ⟨made, _, ⟨face, same⟩, _, _⟩ := good label _ rfl
    dsimp only
    have found : custody.Allows between (pure label) fun after label => custody.mine label ∧ label < after.next :=
      Keeps.pure fun _ further => ⟨own label face same, made.trans_le further.1⟩
    split
    all_goals
      split
      · exact found
      · exact Keeps.throw _
  · exact Keeps.throw _

omit all own in
theorem allows_populated {fresh returned : Value} (allFresh : fresh.Everywhere (custody.Admits stage))
    (allReturned : returned.Everywhere (custody.Admits stage)) (ownFresh : custody.OwnsHandle fresh) (ownReturned : custody.OwnsHandle returned) :
    custody.Allows stage (Session.populated fresh returned) fun after restriction => restriction.Under (custody.rules after custody.mine) := by
  have all : (if returned.truthy then returned else fresh).Everywhere (custody.Admits stage) := by split <;> assumption
  have own : custody.OwnsHandle (if returned.truthy then returned else fresh) := by split <;> assumption
  unfold Session.populated
  generalize (if returned.truthy then returned else fresh) = chosen at all own
  refine (allows_object? all).bind fun between ahead found good => ?_
  split
  · next label c =>
    obtain ⟨made, _, ⟨face, same⟩, _, under⟩ := good label _ rfl
    have mine := own label face same
    refine Keeps.pure fun _ further => ⟨Chain.Under.mono (under mine) (rules_later further), ?_⟩
    rintro _ ⟨⟩
    exact ⟨mine, made.trans_le further.1⟩
  · refine Keeps.pure fun _ further => ?_
    cases read : Predicate.ofValue? chosen with
    | some predicate => exact predicate_under (admits_later all (ahead.trans further)) read
    | none => exact admits_later all (ahead.trans further)

/-- Giving a statement of one's own conditions that are one's own. -/
theorem allows_adopt (groups : Bool) {fresh returned : Value} (allFresh : fresh.Everywhere (custody.Admits stage))
    (allReturned : returned.Everywhere (custody.Admits stage)) (ownFresh : custody.OwnsHandle fresh) (ownReturned : custody.OwnsHandle returned) :
    custody.Allows stage (Session.Move.adopt target groups fresh returned).perform custody.Grants := by
  refine (allows_populatedStatement all own groups).bind fun between ahead label good => ?_
  refine (allows_populated (admits_later allFresh ahead) (admits_later allReturned ahead) ownFresh ownReturned).bind
    fun between' ahead' conditions under => ?_
  have change : custody.StatementChange between' (if groups then .groupFilter conditions else .filter conditions) := by
    split <;> exact under
  exact (allows_editStatement good.1 change).bind fun _ _ _ _ => Keeps.pure fun _ _ => trivial

end Calls

/-! ### Moves -/

/-- A move in custody: what it works on is one's own, and all that it is given may be held. -/
structure Covers (custody : Custody) (stage : Stage) (move : Session.Move) : Prop where
  handles : ∀ value ∈ move.handles, value.Everywhere (custody.Admits stage) ∧ custody.OwnsHandle value
  arguments : Value.AllEverywhere (custody.Admits stage) move.arguments

theorem allows_move {move : Session.Move} (covers : custody.Covers stage move) : custody.Allows stage move.perform custody.Grants := by
  have handles := covers.handles
  have arguments := covers.arguments
  cases move with
  | create kind values named =>
    obtain ⟨given, givenNamed⟩ := List.forall_mem_append.mp arguments
    exact allows_call creators_permitted kind given (List.forall_mem_map.mp givenNamed)
  | call target method values named =>
    obtain ⟨all, own⟩ := List.forall_mem_singleton.mp handles
    obtain ⟨given, givenNamed⟩ := List.forall_mem_append.mp arguments
    exact allows_invoke all own method given (List.forall_mem_map.mp givenNamed)
  | read target name =>
    obtain ⟨all, _⟩ := List.forall_mem_singleton.mp handles
    exact (allows_readAttribute all name).bind fun _ _ _ good => Keeps.pure fun _ further => admits_later good further
  | adopt target groups fresh returned =>
    simp only [Session.Move.handles, List.forall_mem_cons] at handles
    obtain ⟨target, fresh, returned, _⟩ := handles
    exact allows_adopt target.1 target.2 groups fresh.1 returned.1 fresh.2 returned.2

end Custody

end SqlCompose
