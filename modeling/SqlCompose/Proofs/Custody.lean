import Mathlib
import SqlCompose.Proofs.ChangedValues
import SqlCompose.Proofs.Lookup
import SqlCompose.Proofs.ReadValues
import SqlCompose.Session.Building
import SqlCompose.Session.Method

/-!
# Custody

Who may work on which objects of a session, and whose the containers in it are. A custody has objects of its own and objects that it sees, and both count all that are made from a first label on. What is not its own stays as it was. If it keeps track of containers, those in the values that predicates, chains and statements bind belong to these, and those of a finished query belong to it alone.

`Custody.Reached` is what is known of a session at a stage of its work. The rest of this module says what single acts make of it: building, reading an object, putting one in, making a new one.
-/

namespace SqlCompose

open Build

/-- Whose a container is: the caller's, that of some bound value, or that of the finished query under a label. -/
inductive Owner where
  | caller
  | bound
  | query (label : Label)

/-- Whose the containers are that are made along with a result. -/
def Owner.ofResult : Value → Owner
  | .record label _ _ => .query label
  | _ => .bound

/-- The label of an owner, if it has one, has been given out. -/
def Owner.Due (next : Label) (owner : Owner) : Prop :=
  ∀ query, owner = .query query → query < next

/-- How far the work on a session has come: the next label, and whose the containers are that have been made. A container never belongs to a finished query that has not been made yet. -/
structure Stage where
  next : Label
  owner : Label → Option Owner
  closed : ∀ label < next, ∀ query, owner label = some (.query query) → query < next

namespace Stage

/-- A later stage leaves what was made before to its owners. -/
instance : Preorder Stage where
  le stage stage' := stage.next ≤ stage'.next ∧ ∀ label < stage.next, stage'.owner label = stage.owner label
  le_refl stage := ⟨le_rfl, fun _ _ => rfl⟩
  le_trans _ _ _ first second := ⟨first.1.trans second.1, fun label made =>
    (second.2 label (made.trans_le first.1)).trans (first.2 label made)⟩

/-- A container that has been made belongs to an owner. -/
def Owns (stage : Stage) (owner : Owner) (label : Label) : Prop :=
  label < stage.next ∧ stage.owner label = some owner

variable {stage stage' : Stage} {owner : Owner} {label next : Label}

theorem Owns.later (owns : stage.Owns owner label) (ahead : stage ≤ stage') : stage'.Owns owner label :=
  ⟨owns.1.trans_le ahead.1, (ahead.2 label owns.1).trans owns.2⟩

/-- The stage after labels were given out, all to one owner. -/
def advance (stage : Stage) (next : Label) (owner : Owner) (grown : stage.next ≤ next) (due : owner.Due next) : Stage where
  next := next
  owner label := if label < stage.next then stage.owner label else some owner
  closed label _ query owned := by
    split at owned
    · next made => exact (stage.closed label made query owned).trans_le grown
    · exact due query (Option.some.inj owned)

variable {grown : stage.next ≤ next} {due : owner.Due next}

theorem le_advance : stage ≤ stage.advance next owner grown due :=
  ⟨grown, fun _ made => if_pos made⟩

theorem owns_advance (given : stage.next ≤ label ∧ label < next) : (stage.advance next owner grown due).Owns owner label :=
  ⟨given.2, if_neg (Nat.not_lt.mpr given.1)⟩

/-- What belongs to a finished query was made no earlier than the query. -/
theorem Owns.not_before {query : Label} (owns : stage'.Owns (.query query) label) (ahead : stage ≤ stage') (later : stage.next ≤ query) :
    stage.next ≤ label := by
  by_contra made
  have before : label < stage.next := Nat.not_le.mp made
  exact absurd (stage.closed label before query ((ahead.2 label before).symm.trans owns.2)) (Nat.not_lt.mpr later)

end Stage

/-- Objects of one's own and objects that are seen. -/
structure Custody where
  mine : Label → Prop
  seen : Label → Prop
  seen_of_mine : ∀ label, mine label → seen label
  first : Label
  new : ∀ label, first ≤ label → mine label
  /-- What the objects are that are not one's own. -/
  others : Label → Option Object
  /-- Whether it is kept track of whose the containers are. -/
  tracked : Prop
  /-- Whether the variables of the session are its own. -/
  named : Prop
  mine_of_named : named → ∀ label, mine label

namespace Custody

variable (custody : Custody) (stage : Stage)

/-! ### What may be held -/

/-- What may lie in a value: objects that are seen, predicates over bound values, and finished queries over containers of their own. -/
structure Admits (value : Value) : Prop where
  object : ∀ label face, value = .object label face → custody.seen label ∧ label < stage.next
  predicate : custody.tracked → ∀ label text held values, value = .record label .predicate [text, .tuple held values] →
    ∀ bound ∈ values, bound.fault? = none ∧ ∀ container ∈ bound.containers, stage.Owns .bound container
  query : custody.tracked → ∀ label text held values, value = .record label .builtQuery [text, .tuple held values] →
    ∀ container ∈ Value.containersOfAll values, stage.Owns (.query label) container

/-- A value that may be bound to a placeholder. -/
structure Binds (value : Value) : Prop where
  everywhere : value.Everywhere (custody.Admits stage)
  bindable : custody.tracked → value.fault? = none
  owned : custody.tracked → ∀ label ∈ value.containers, stage.Owns .bound label

/-- A finished query that may be a part of a statement. -/
structure Finishes (query : BuiltQuery) : Prop where
  sound : query.Sound (custody.Admits stage)
  owned : custody.tracked → ∃ label, ∀ container ∈ Value.containersOfAll query.values, stage.Owns (.query label) container

/-- The rules for objects of which some hands may hold parts. -/
def rules (hands : Label → Prop) : Rules where
  bound := custody.Binds stage
  other value := value.Everywhere (custody.Admits stage)
  finished := custody.Finishes stage
  hands label := hands label ∧ label < stage.next

variable {custody stage} {stage' : Stage}

theorem Admits.later {value : Value} (admits : custody.Admits stage value) (ahead : stage ≤ stage') : custody.Admits stage' value where
  object label face same := ⟨(admits.object label face same).1, (admits.object label face same).2.trans_le ahead.1⟩
  predicate tracked label text held values same bound member :=
    have good := admits.predicate tracked label text held values same bound member
    ⟨good.1, fun container inside => (good.2 container inside).later ahead⟩
  query tracked label text held values same container member :=
    (admits.query tracked label text held values same container member).later ahead

theorem admits_later {value : Value} (all : value.Everywhere (custody.Admits stage)) (ahead : stage ≤ stage') :
    value.Everywhere (custody.Admits stage') :=
  all.imp fun _ admits => admits.later ahead

theorem Binds.later {value : Value} (binds : custody.Binds stage value) (ahead : stage ≤ stage') : custody.Binds stage' value :=
  ⟨admits_later binds.everywhere ahead, binds.bindable, fun tracked label inside => (binds.owned tracked label inside).later ahead⟩

theorem Finishes.later {query : BuiltQuery} (finishes : custody.Finishes stage query) (ahead : stage ≤ stage') :
    custody.Finishes stage' query where
  sound := ⟨admits_later finishes.sound.text ahead, fun value member => admits_later (finishes.sound.values value member) ahead⟩
  owned tracked := (finishes.owned tracked).imp fun _ all container member => (all container member).later ahead

theorem rules_later {hands : Label → Prop} (ahead : stage ≤ stage') :
    (custody.rules stage hands).Implies (custody.rules stage' hands) :=
  ⟨fun _ binds => binds.later ahead, fun _ all => admits_later all ahead, fun _ finishes => finishes.later ahead,
    fun _ held => ⟨held.1, held.2.trans_le ahead.1⟩⟩

theorem rules_seen : (custody.rules stage custody.mine).Implies (custody.rules stage custody.seen) :=
  ⟨fun _ good => good, fun _ good => good, fun _ good => good, fun label held => ⟨custody.seen_of_mine label held.1, held.2⟩⟩

theorem free : Value.OfHandles (custody.Admits stage) := fun _ noObject noPredicate noQuery =>
  ⟨fun label face same => absurd same (noObject label face), fun _ label _ _ _ same => absurd same (noPredicate label _),
    fun _ label _ _ _ same => absurd same (noQuery label _)⟩

theorem within {hands : Label → Prop} : (custody.rules stage hands).Within (custody.Admits stage) :=
  ⟨fun _ binds => binds.everywhere, fun _ all => all, fun _ finishes => finishes.sound⟩

/-! ### Under other faces -/

private theorem of_refacedItems {faceOf : Label → Option ObjectFace} {fields : List Value} {text : Value} {held : Label}
    {values : List Value} (same : Value.refacedItems faceOf fields = [text, .tuple held values]) :
    ∃ text' values', fields = [text', .tuple held values'] ∧ values = Value.refacedItems faceOf values' := by
  match fields, same with
  | [text', .tuple label values'], same =>
    simp only [Value.refacedItems, Value.refaced, List.cons.injEq, Value.tuple.injEq] at same
    obtain ⟨_, ⟨rfl, rfl⟩, _⟩ := same
    exact ⟨text', values', rfl, rfl⟩

theorem faceless : Value.Faceless (custody.Admits stage) := by
  intro value faceOf admits
  cases value with
  | object label face =>
    refine ⟨fun label' face' same => ?_, by rintro _ _ _ _ _ ⟨⟩, by rintro _ _ _ _ _ ⟨⟩⟩
    cases same
    exact admits.object label face rfl
  | record label kind fields =>
    refine ⟨by rintro _ _ ⟨⟩, fun tracked label' text held values same => ?_, fun tracked label' text held values same => ?_⟩
    · injection same with _ kind shape
      subst kind
      obtain ⟨text', values', rfl, rfl⟩ := of_refacedItems shape
      have good := admits.predicate tracked label text' held values' rfl
      rwa [Value.refacedItems_of_bindable _ values' (Value.faultItems?_eq_none.mpr fun value member => (good value member).1)]
    · injection same with label kind shape
      subst label kind
      obtain ⟨text', values', rfl, rfl⟩ := of_refacedItems shape
      rw [Value.containers_refacedItems]
      exact admits.query tracked label text' held values' rfl
  | _ => exact free.other rfl

theorem Binds.refaced {value : Value} (binds : custody.Binds stage value) (faceOf : Label → Option ObjectFace) :
    custody.Binds stage (value.refaced faceOf) where
  everywhere := binds.everywhere.refaced faceOf faceless value
  bindable tracked := by
    rw [Value.refaced_of_bindable faceOf value (binds.bindable tracked)]
    exact binds.bindable tracked
  owned tracked := by
    rw [Value.containers_refaced]
    exact binds.owned tracked

theorem through_refaced (faceOf : Label → Option ObjectFace) (hands : Label → Prop) :
    Rules.Through (Value.refaced faceOf) (custody.rules stage hands) (custody.rules stage hands) where
  bound _ binds := binds.refaced faceOf
  other value all := Value.Everywhere.refaced faceOf faceless value all
  finished query finishes := by
    refine ⟨⟨Value.Everywhere.refaced faceOf faceless _ finishes.sound.text, ?_⟩, fun tracked => ?_⟩
    · exact List.forall_mem_map.mpr fun value member => Value.Everywhere.refaced faceOf faceless value (finishes.sound.values value member)
    · refine (finishes.owned tracked).imp fun label all container member => ?_
      obtain ⟨value, inside, held⟩ := Value.mem_containersOfAll.mp member
      obtain ⟨given, there, rfl⟩ := List.mem_map.mp inside
      rw [Value.containers_refaced] at held
      exact all container (Value.mem_containersOfAll.mpr ⟨given, there, held⟩)
  hands _ held := held

/-! ### Sessions -/

/-- What is known of a session at a stage. -/
structure Reached (custody : Custody) (stage : Stage) (session : Session) : Prop where
  next : session.trace.nextLabel = stage.next
  started : custody.first ≤ stage.next
  /-- Objects have labels that have been given out. -/
  made : ∀ label object, session.stored? label = some object → label < stage.next
  objects : ∀ label object, session.stored? label = some object → custody.seen label → object.Under (custody.rules stage custody.seen)
  own : ∀ label object, session.stored? label = some object → custody.mine label → object.Under (custody.rules stage custody.mine)
  others : ∀ label, ¬ custody.mine label → session.stored? label = custody.others label
  defaults : session.defaults.compact.Single ∧ session.defaults.deep.Single
  bindings : custody.named → ∀ name value, session.bindings.lookup name = some value → value.Everywhere (custody.Admits stage)

/-- From a stage on, something can be done in a session with results of some sort. -/
abbrev Allows (custody : Custody) (stage : Stage) {α : Type} (action : Act α) (result : Stage → α → Prop) : Prop :=
  Keeps custody.Reached stage action result

/-- A chain that somebody holds is under the rules if its holder is. -/
private theorem chain_under {session : Session} {hands : Label → Prop}
    (under : ∀ label object, session.stored? label = some object → hands label → object.Under (custody.rules stage hands))
    (label : Label) (held : (custody.rules stage hands).hands label) (chain : Chain) (found : session.chain? label = some chain) :
    chain.Under (custody.rules stage hands) := by
  unfold Session.chain? at found
  split at found
  · next given =>
    cases found
    exact under label _ given held.1
  · cases found

namespace Reached

variable {session : Session} (reached : custody.Reached stage session)
include reached

theorem later (ahead : stage ≤ stage') {trace : Trace} (next : trace.nextLabel = stage'.next) :
    custody.Reached stage' { session with trace } where
  next := next
  started := reached.started.trans ahead.1
  made label object given := (reached.made label object given).trans_le ahead.1
  objects label object given seen := (reached.objects label object given seen).mono (rules_later ahead)
  own label object given mine := (reached.own label object given mine).mono (rules_later ahead)
  others := reached.others
  defaults := reached.defaults
  bindings named name value given := admits_later (reached.bindings named name value given) ahead

theorem object {label : Label} {object : Object} (found : session.object? label = some object) :
    label < stage.next ∧ (custody.seen label → object.Under (custody.rules stage custody.seen)) ∧
      (custody.mine label → object.Under (custody.rules stage custody.mine)) := by
  obtain ⟨stored, given, rfl⟩ := Option.map_eq_some_iff.mp found
  refine ⟨reached.made label stored given, fun seen => ?_, fun mine => ?_⟩
  · exact ((reached.objects label stored given seen).resolved (chain_under reached.objects)).mapValues (through_refaced _ _)
  · exact ((reached.own label stored given mine).resolved (chain_under reached.own)).mapValues (through_refaced _ _)

theorem put {label : Label} (mine : custody.mine label) (made : label < stage.next) {object : Object}
    (under : object.Under (custody.rules stage custody.mine)) : custody.Reached stage (session.put label object) := by
  have stored (other : Label) : (session.put label object).stored? other =
      if other = label then some object else session.stored? other := lookup_putEntry label other object session.objects
  refine ⟨reached.next, reached.started, fun other given => ?_, fun other given => ?_, fun other given => ?_, fun other foreign => ?_,
    reached.defaults, reached.bindings⟩
  · rw [stored]
    split
    · next same =>
      subst same
      exact fun _ => made
    · exact reached.made other given
  · rw [stored]
    split
    · rintro ⟨⟩ _
      exact under.mono rules_seen
    · exact reached.objects other given
  · rw [stored]
    split
    · rintro ⟨⟩ _
      exact under
    · exact reached.own other given
  · rw [stored, if_neg (by rintro rfl; exact foreign mine)]
    exact reached.others other foreign

end Reached

/-! ### Building -/

theorem binds_of_made {next : Label} (grown : stage.next ≤ next) {value : Value} (made : value.Made stage.next next) :
    custody.Binds (stage.advance next .bound grown (by rintro _ ⟨⟩)) value :=
  ⟨Value.everywhere_of_bindable free value made.bindable, fun _ => made.bindable, fun _ label inside =>
    Stage.owns_advance (made.own label inside)⟩

/-- What was copied belongs to bound values when it has been given to them. -/
theorem binds_advance {hands : Label → Prop} {next : Label} (grown : stage.next ≤ next) :
    ((custody.rules stage hands).grown stage.next next).Implies (custody.rules (stage.advance next .bound grown (by rintro _ ⟨⟩)) hands) where
  bound value good := by
    rcases good with binds | made
    · exact binds.later Stage.le_advance
    · exact binds_of_made grown made
  other _ all := admits_later all Stage.le_advance
  finished _ finishes := finishes.later Stage.le_advance
  hands _ held := ⟨held.1, held.2.trans_le grown⟩

/-- What is under the rules at a stage is under them later, with more values that were copied. -/
theorem later_grown {hands : Label → Prop} {next : Label} (ahead : stage ≤ stage') :
    (custody.rules stage hands).Implies ((custody.rules stage' hands).grown stage'.next next) :=
  (rules_later ahead).trans Rules.implies_grown

section Acts

variable {α β : Type} {final : Stage → α → Prop}

/-- Building in a session. What was made in the course of it goes to one owner. -/
theorem allows_build {action : Build α} (owner : α → Owner) (result : Stage → Label → α → Prop)
    (gives : ∀ before, stage ≤ before → Gives before.next action (result before))
    (due : ∀ before next value, result before next value → (owner value).Due next)
    (settled : ∀ before next value (grown : before.next ≤ next) (good : result before next value), stage ≤ before →
      custody.first ≤ before.next → final (before.advance next (owner value) grown (due before next value good)) value) :
    custody.Allows stage (Act.build action) final := by
  intro before ahead session reached
  obtain ⟨next, grown, here, results⟩ := gives before ahead before.next le_rfl session.trace reached.next
  change ∃ after, before ≤ after ∧ custody.Reached after { session with trace := (action.run session.trace).2 } ∧
    ∀ value, (action.run session.trace).1 = .ok value → final after value
  cases outcome : (action.run session.trace).1 with
  | error error =>
    exact ⟨before.advance next .caller grown (by rintro _ ⟨⟩), Stage.le_advance, reached.later Stage.le_advance here, by rintro _ ⟨⟩⟩
  | ok value =>
    have good := results value outcome
    refine ⟨before.advance next (owner value) grown (due before next value good), Stage.le_advance,
      reached.later Stage.le_advance here, ?_⟩
    rintro _ ⟨⟩
    exact settled before next value grown good ahead reached.started

theorem allows_quiet {action : Build α} {result : α → Prop} (gives : ∀ first, Gives first action fun _ value => result value)
    (settled : ∀ after, stage ≤ after → ∀ value, result value → final after value) :
    custody.Allows stage (Act.build action) final :=
  allows_build (fun _ => .caller) (fun _ _ => result) (fun before _ => gives before.next) (fun _ _ _ _ => (by rintro _ ⟨⟩))
    fun _ _ value _ good ahead _ => settled _ (ahead.trans Stage.le_advance) value good

theorem allows_label {next : Label → Act β} {final : Stage → β → Prop}
    (further : ∀ after label, stage ≤ after → custody.mine label → label < after.next → custody.Allows after (next label) final) :
    custody.Allows stage (Act.build freshLabel >>= next) final := by
  have fresh : custody.Allows stage (Act.build freshLabel) fun after label => custody.mine label ∧ label < after.next :=
    allows_build (fun _ => .caller) _ (fun _ _ => gives_freshLabel) (fun _ _ _ _ => (by rintro _ ⟨⟩)) fun _ _ label _ good _ started =>
      ⟨custody.new label (started.trans good.1), good.2⟩
  exact fresh.bind fun after ahead label good => further after label ahead good.1 good.2

/-- Building something under rules that are widened by what is copied in the course of it. -/
theorem allows_grown {action : Build α} {hands : Label → Prop} (under : Rules → α → Prop)
    (mono : ∀ {rules rules' : Rules}, rules.Implies rules' → ∀ value, under rules value → under rules' value)
    (gives : ∀ before, stage ≤ before → Gives before.next action fun next value =>
      under ((custody.rules before hands).grown before.next next) value) :
    custody.Allows stage (Act.build action) fun after value => under (custody.rules after hands) value :=
  allows_build (fun _ => .bound) _ gives (fun _ _ _ _ => (by rintro _ ⟨⟩)) fun _ _ value grown good _ _ => mono (binds_advance grown) value good

/-! ### Objects -/

theorem allows_get : custody.Allows stage (get : Act Session) custody.Reached :=
  fun before _ session reached => ⟨before, le_rfl, reached, fun value same => by cases same; exact reached⟩

theorem allows_object (label : Label) : custody.Allows stage (Act.object label) fun after object =>
    label < after.next ∧ (custody.seen label → object.Under (custody.rules after custody.seen)) ∧
      (custody.mine label → object.Under (custody.rules after custody.mine)) := by
  refine allows_get.bind fun between ahead session reached => ?_
  cases found : session.object? label with
  | none => exact Keeps.throw _
  | some object =>
    have good := reached.object found
    exact Keeps.pure fun after further => ⟨good.1.trans_le further.1, fun seen => (good.2.1 seen).mono (rules_later further),
      fun mine => (good.2.2 mine).mono (rules_later further)⟩

theorem allows_object? {value : Value} (all : value.Everywhere (custody.Admits stage)) :
    custody.Allows stage (Act.object? value) fun after found => ∀ label object, found = some (label, object) →
      label < after.next ∧ custody.seen label ∧ (∃ face, value = .object label face) ∧
        object.Under (custody.rules after custody.seen) ∧
        (custody.mine label → object.Under (custody.rules after custody.mine)) := by
  by_cases refers : ∃ label face, value = .object label face
  · obtain ⟨label, face, rfl⟩ := refers
    have seen := (all.self.object label face rfl).1
    refine (allows_object label).bind fun after ahead object good => Keeps.pure fun _ further => ?_
    rintro _ _ ⟨⟩
    exact ⟨good.1.trans_le further.1, seen, ⟨face, rfl⟩, (good.2.1 seen).mono (rules_later further),
      fun mine => (good.2.2 mine).mono (rules_later further)⟩
  · have none : Act.object? value = pure none := by
      cases value with
      | object label face => exact absurd ⟨label, face, rfl⟩ refers
      | _ => rfl
    rw [none]
    exact Keeps.pure fun _ _ => (by rintro _ _ ⟨⟩)

theorem allows_put {label : Label} (mine : custody.mine label) (made : label < stage.next) (object : Object)
    (under : object.Under (custody.rules stage custody.mine)) : custody.Allows stage (Act.put label object) fun _ _ => True :=
  fun before ahead _ reached => ⟨before, le_rfl,
    reached.put mine (made.trans_le ahead.1) (under.mono (rules_later ahead)), fun _ _ => trivial⟩

theorem admits_object {label : Label} (face : ObjectFace) (seen : custody.seen label) (made : label < stage.next) :
    (Value.object label face).Everywhere (custody.Admits stage) :=
  List.forall_mem_singleton.mpr ⟨fun _ _ same => by cases same; exact ⟨seen, made⟩, by rintro _ _ _ _ _ ⟨⟩, by rintro _ _ _ _ _ ⟨⟩⟩

theorem allows_new (object : Object) (under : object.Under (custody.rules stage custody.mine)) :
    custody.Allows stage (Act.new object) fun after value => value.Everywhere (custody.Admits after) :=
  allows_label fun _ label ahead mine made =>
    (allows_put mine made object (under.mono (rules_later ahead))).bind fun _ ahead' _ _ => Keeps.pure fun _ further =>
      admits_object _ (custody.seen_of_mine label mine) (made.trans_le (ahead'.trans further).1)

/-! ### Results -/

/-- What a call gives may be held. -/
def Grants (custody : Custody) (stage : Stage) : Outcome → Prop
  | .itself => True
  | .value value => value.Everywhere (custody.Admits stage)

theorem Grants.later {outcome : Outcome} (granted : custody.Grants stage outcome) (ahead : stage ≤ stage') : custody.Grants stage' outcome := by
  cases outcome with
  | itself => trivial
  | value _ => exact admits_later granted ahead

theorem allows_newResult (object : Object) (under : object.Under (custody.rules stage custody.mine)) :
    custody.Allows stage (Act.newResult object) custody.Grants :=
  (allows_new object under).bind fun _ _ _ good => Keeps.pure fun _ further => admits_later good further

private theorem allows_result {action : Build Value}
    (allows : custody.Allows stage (Act.build action) fun after value => value.Everywhere (custody.Admits after)) :
    custody.Allows stage (Act.builtResult action) custody.Grants :=
  allows.bind fun _ _ _ good => Keeps.pure fun _ further => admits_later good further

/-- Building a value that is no query and no predicate. -/
theorem allows_builtResult {action : Build Value}
    (gives : ∀ first, Gives first action fun _ value => value.Everywhere (custody.Admits stage)) :
    custody.Allows stage (Act.builtResult action) custody.Grants :=
  allows_result (allows_quiet gives fun _ ahead _ good => admits_later good ahead)

theorem admits_query {query : BuiltQuery} {label held : Label} (sound : query.Sound (custody.Admits stage))
    (owned : custody.tracked → ∀ container ∈ Value.containersOfAll query.values, stage.Owns (.query label) container) :
    (Value.record label .builtQuery [query.text, .tuple held query.values]).Everywhere (custody.Admits stage) := by
  refine Value.everywhere_record.mpr ⟨⟨by rintro _ _ ⟨⟩, by rintro _ _ _ _ _ ⟨⟩, fun tracked _ _ _ _ same => ?_⟩, ?_⟩
  · cases same
    exact owned tracked
  · exact List.forall_mem_cons.mpr ⟨sound.text, List.forall_mem_singleton.mpr (Value.everywhere_newTuple free held sound.values)⟩

theorem admits_predicate {hands : Label → Prop} {predicate : Predicate} {label held : Label}
    (under : predicate.Under (custody.rules stage hands)) :
    (Value.record label .predicate [predicate.text.toValue, .tuple held predicate.values]).Everywhere (custody.Admits stage) := by
  refine Value.everywhere_record.mpr ⟨⟨by rintro _ _ ⟨⟩, fun tracked _ _ _ _ same => ?_, by rintro _ _ _ _ _ ⟨⟩⟩, ?_⟩
  · cases same
    exact fun value member => ⟨(under value member).bindable tracked, (under value member).owned tracked⟩
  · have text : predicate.text.toValue.Everywhere (custody.Admits stage) := by
      cases predicate.text <;> exact List.forall_mem_singleton.mpr (free.other rfl)
    exact List.forall_mem_cons.mpr ⟨text, List.forall_mem_singleton.mpr
      (Value.everywhere_newTuple free held fun value member => (under value member).everywhere)⟩

/-- A finished query over copies of its own, as a value. -/
theorem allows_queryResult {action : Build BuiltQuery}
    (gives : ∀ before, stage ≤ before → Gives before.next action (BuiltQuery.Fresh (custody.Admits before) before.next)) :
    custody.Allows stage (Act.queryResult action) custody.Grants := by
  have valued : ∀ before, stage ≤ before → Gives before.next (do (← action).toValue) fun next value =>
      ∃ (query : BuiltQuery) (label held : Label), value = .record label .builtQuery [query.text, .tuple held query.values] ∧
        label < next ∧ query.Fresh (custody.Admits before) before.next next := by
    intro before ahead
    refine (gives before ahead).bind fun _ _ query fresh => ?_
    refine gives_freshLabel.bind fun _ further held _ => gives_freshLabel.bind fun _ further' label made => ?_
    exact Keeps.pure fun _ further'' => ⟨query, label, held, rfl, made.2.trans_le further'', fresh.text,
      fresh.values.later (further.trans (further'.trans further''))⟩
  have due : ∀ before next value, (∃ (query : BuiltQuery) (label held : Label),
      value = .record label .builtQuery [query.text, .tuple held query.values] ∧
        label < next ∧ query.Fresh (custody.Admits before) before.next next) → (Owner.ofResult value).Due next := by
    rintro before next _ ⟨_, label, _, rfl, made, _⟩ _ ⟨⟩
    exact made
  refine allows_result (allows_build Owner.ofResult _ valued due ?_)
  rintro before next _ grown ⟨query, label, held, rfl, made, fresh⟩ _ _
  have ahead : before ≤ before.advance next (.query label) grown (due before next _ ⟨query, label, held, rfl, made, fresh⟩) :=
    Stage.le_advance
  refine admits_query ⟨admits_later fresh.text ahead, fun value member => admits_later (fresh.values.sound value member) ahead⟩ ?_
  exact fun _ container member => Stage.owns_advance (fresh.values.own container member)

theorem allows_predicateResult {action : Build Predicate}
    (gives : ∀ before, stage ≤ before → Gives before.next action fun next predicate =>
      predicate.Under ((custody.rules before custody.seen).grown before.next next)) :
    custody.Allows stage (Act.predicateResult action) custody.Grants := by
  have valued : ∀ before, stage ≤ before → Gives before.next (do (← action).toValue) fun next value =>
      ∃ (predicate : Predicate) (label held : Label), value = .record label .predicate [predicate.text.toValue, .tuple held predicate.values] ∧
        predicate.Under ((custody.rules before custody.seen).grown before.next next) := by
    intro before ahead
    refine (gives before ahead).bind fun _ _ predicate good => ?_
    refine gives_freshLabel.bind fun _ further held _ => gives_freshLabel.bind fun _ further' label _ => ?_
    exact Keeps.pure fun _ further'' =>
      ⟨predicate, label, held, rfl, good.mono (Rules.grown_implies (further.trans (further'.trans further'')))⟩
  refine allows_result (allows_build (fun _ => .bound) _ valued (fun _ _ _ _ => (by rintro _ ⟨⟩)) ?_)
  rintro before next _ grown ⟨predicate, label, held, rfl, good⟩ _ _
  exact admits_predicate (good.mono (binds_advance grown))

end Acts

end Custody

end SqlCompose
