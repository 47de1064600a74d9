import Mathlib
import SqlCompose.Proofs.BuildCalls
import SqlCompose.Proofs.FixedValues
import SqlCompose.Proofs.SnapshotIsolation

/-!
# Values that builders own

A value is copied when it is bound, so a container that nobody has bound before is bound nowhere afterwards, however often its caller passes it on. Of all that an object holds, only its names and switches and the finished queries in it can have such a container in them: a finished query is taken over as it is. Whoever changes the container in place changes those, and leaves every other object the very object that it was.

What is asked of a container is asked of objects by rules. What is under two kinds of rules is under every kind that both together imply (`Object.Under.together`), so what custody knows of bound values meets there what is asked of names and of finished queries.
-/

namespace SqlCompose

/-! ### What two kinds of rules imply together -/

namespace Rules

/-- What is under some rules and under others is under further ones. -/
structure Together (rules rules' rules'' : Rules) : Prop where
  bound : ∀ value, rules.bound value → rules'.bound value → rules''.bound value
  other : ∀ value, rules.other value → rules'.other value → rules''.other value
  finished : ∀ query, rules.finished query → rules'.finished query → rules''.finished query
  hands : ∀ label, rules.hands label → rules'.hands label → rules''.hands label

theorem Together.closed {rules rules' rules'' : Rules} (both : Together rules rules' rules'') :
    Together rules.closed rules'.closed rules''.closed :=
  ⟨both.bound, both.other, both.finished, fun _ absurdity _ => absurdity⟩

end Rules

section Together

variable {rules rules' rules'' : Rules}

private theorem predicate_together {predicate : Predicate} (under : predicate.Under rules) (under' : predicate.Under rules')
    (both : Rules.Together rules rules' rules'') : predicate.Under rules'' :=
  fun value member => both.bound value (under value member) (under' value member)

private theorem chain_together {chain : Chain} (under : chain.Under rules) (under' : chain.Under rules')
    (both : Rules.Together rules rules' rules'') : chain.Under rules'' :=
  fun link member => predicate_together (under link member) (under' link member) both

private theorem restriction_together {restriction : Restriction} (under : restriction.Under rules)
    (under' : restriction.Under rules') (both : Rules.Together rules rules' rules'') : restriction.Under rules'' := by
  cases restriction with
  | chain held =>
    exact ⟨chain_together under.1 under'.1 both, fun label member => both.hands label (under.2 label member) (under'.2 label member)⟩
  | predicate p => exact predicate_together under under' both
  | unusable value _ => exact both.other value under under'

private theorem settings_together {settings : Settings} (under : settings.Under rules) (under' : settings.Under rules')
    (both : Rules.Together rules rules' rules'') : settings.Under rules'' :=
  ⟨fun schema member => both.other schema (under.schemas schema member) (under'.schemas schema member),
    both.other _ under.compact under'.compact, both.other _ under.deep under'.deep⟩

private theorem cte_together {Q : Type} {cte : Cte Q} (under : cte.Under rules) (under' : cte.Under rules')
    (both : Rules.Together rules rules' rules'') : cte.Under rules'' :=
  ⟨both.other _ under.name under'.name, both.other _ under.recursive under'.recursive⟩

private theorem join_together {Q : Type} {join : Join Q} (under : join.Under rules) (under' : join.Under rules')
    (both : Rules.Together rules rules' rules'') : join.Under rules'' :=
  ⟨fun name member => both.other name (under.names name member) (under'.names name member),
    fun predicate member => predicate_together (under.condition predicate member) (under'.condition predicate member) both⟩

theorem Statement.Under.together {Q : Type} {statement : Statement Q} (under : statement.Under rules)
    (under' : statement.Under rules') (both : Rules.Together rules rules' rules'') : statement.Under rules'' where
  settings settings member := settings_together (under.settings settings member) (under'.settings settings member) both
  ctes cte member := cte_together (under.ctes cte member) (under'.ctes cte member) both
  joins join member := join_together (under.joins join member) (under'.joins join member) both
  fields field member := both.other _ (under.fields field member) (under'.fields field member)
  restrictions restriction member :=
    restriction_together (under.restrictions restriction member) (under'.restrictions restriction member) both
  ownNames name member := both.other name (under.ownNames name member) (under'.ownNames name member)
  switches switch member := both.other switch (under.switches switch member) (under'.switches switch member)
  expressions expression member :=
    both.other expression (under.expressions expression member) (under'.expressions expression member)
  entries value member := both.bound value (under.entries value member) (under'.entries value member)
  leaf query same := both.finished query (under.leaf query same) (under'.leaf query same)

theorem Query.Under.together {query : Query} (under : query.Under rules) (under' : query.Under rules')
    (both : Rules.Together rules rules' rules'') : query.Under rules'' := by
  induction under generalizing rules' rules'' with
  | of own _ ih =>
    obtain ⟨own', parts'⟩ := under_of.mp under'
    exact .of (own.together own' both) fun child member => ih child member (parts' child member) both.closed

private theorem expression_together {cte : Cte Query} (under : cte.UnderAll rules) (under' : cte.UnderAll rules')
    (both : Rules.Together rules rules' rules'') : cte.UnderAll rules'' :=
  ⟨cte_together under.toUnder under'.toUnder both,
    fun query member => (under.query query member).together (under'.query query member) both.closed⟩

/-- An object under two kinds of rules is under what these imply together. -/
theorem Object.Under.together {object : Object} (under : object.Under rules) (under' : object.Under rules')
    (both : Rules.Together rules rules' rules'') : object.Under rules'' := by
  cases object with
  | chain c => exact chain_together under under' both
  | query q => exact ⟨under.1.together under'.1 both, under.2⟩
  | cte c => exact expression_together under under' both
  | ctes cs => exact fun c member => expression_together (under c member) (under' c member) both
  | column c => exact fun value member => both.other value (under value member) (under' value member)
  | table t =>
    exact ⟨fun name member => both.other name (under.1 name member) (under'.1 name member),
      fun column member => both.other column (under.2 column member) (under'.2 column member)⟩
  | queryMaker defaults => exact ⟨both.other _ under.1 under'.1, both.other _ under.2 under'.2⟩
  | tableMaker _ => trivial

end Together

/-! ### Where a container may lie -/

namespace Value

/-- A predicate does not bind a container. -/
def Spares (container : Label) (value : Value) : Prop :=
  ∀ label text held values, value = .record label .predicate [text, .tuple held values] → container ∉ containersOfAll values

theorem faceless_spares (container : Label) : Faceless (Spares container) := by
  rintro value faceOf spares label text held values same
  match value, same with
  | .record _ .predicate [_, .tuple _ given], same =>
    simp only [refaced, refacedItems, record.injEq, List.cons.injEq, tuple.injEq] at same
    obtain ⟨rfl, -, rfl, ⟨rfl, rfl⟩, -⟩ := same
    rw [containers_refacedItems]
    exact spares _ _ _ given rfl

theorem ofHandles_spares (container : Label) : OfHandles (Spares container) := by
  rintro value - other - label text held values rfl
  exact absurd rfl (other label _)

mutual

/-- A change in place of what does not lie in a value leaves the value as it is. -/
theorem changed_of_holds_eq_false {label : Label} (change : Value → Value) :
    (value : Value) → value.holds label = false → value.changed label change = value
  | .list l items, out => by
    simp only [holds, Bool.or_eq_false_iff, beq_eq_false_iff_ne] at out
    rw [changed, if_neg out.1, changedItems_of_anyHolds_eq_false change items out.2]
  | .tuple l items, out => by
    simp only [holds, Bool.or_eq_false_iff] at out
    rw [changed, changedItems_of_anyHolds_eq_false change items out.2]
  | .record l kind fields, out => by
    simp only [holds, Bool.or_eq_false_iff] at out
    rw [changed, changedItems_of_anyHolds_eq_false change fields out.2]
  | .dict l entries, out => by
    simp only [holds, Bool.or_eq_false_iff, beq_eq_false_iff_ne] at out
    rw [changed, if_neg out.1, changedEntries_of_anyHolds_eq_false change entries out.2]
  | .byteArray l content, out => by
    have other : l ≠ label := by simpa [holds, label?] using out
    rw [changed, if_neg other]
  | .null, _ | .bool _, _ | .int _, _ | .float _, _ | .floatNaN _, _ | .decimal _, _ | .decimalNaN _ _, _ | .text _, _ | .entry _, _
  | .bytes _, _ | .date _, _ | .dateTime _, _ | .time _, _ | .duration _ _ _, _ | .uuid _, _ | .unbindable _ _, _ | .object _ _, _ => rfl

theorem changedItems_of_anyHolds_eq_false {label : Label} (change : Value → Value) :
    (items : List Value) → anyHolds label items = false → changedItems label change items = items
  | [], _ => rfl
  | item :: items, out => by
    simp only [anyHolds, Bool.or_eq_false_iff] at out
    rw [changedItems, changed_of_holds_eq_false change item out.1, changedItems_of_anyHolds_eq_false change items out.2]

theorem changedEntries_of_anyHolds_eq_false {label : Label} (change : Value → Value) :
    (entries : List (Value × Value)) → anyEntryHolds label entries = false → changedEntries label change entries = entries
  | [], _ => rfl
  | (key, value) :: entries, out => by
    simp only [anyEntryHolds, Bool.or_eq_false_iff] at out
    rw [changedEntries, changed_of_holds_eq_false change value out.1.2, changedEntries_of_anyHolds_eq_false change entries out.2]

end

end Value

namespace Rules

/-- The rules for objects that do not bind a container, and hold no predicate that does. -/
def sparing (container : Label) : Rules where
  bound value := container ∉ value.containers
  other value := value.Everywhere (Value.Spares container)
  finished query := query.Sound (Value.Spares container)
  hands _ := True

/-- The rules for objects with no name, no switch and no finished query that a container lies in. -/
def apart (container : Label) : Rules where
  bound _ := True
  other value := value.holds container = false
  finished query := query.text.holds container = false ∧ ∀ value ∈ query.values, value.holds container = false
  hands _ := True

end Rules

namespace Session

/-- A container that has been made and that nothing in the session binds. -/
structure Unbound (session : Session) (container : Label) : Prop where
  made : container < session.trace.nextLabel
  bindings : ∀ name value, session.bindings.lookup name = some value → value.Everywhere (Value.Spares container)
  objects : ∀ label object, session.stored? label = some object → object.Under (Rules.sparing container)

/-- One step of a script, without a change of a container in place. -/
def Continues (session after : Session) : Prop :=
  ∃ (quiet : Bool) (step : Step), step.Sound False ∧ after = (session.answer quiet step).2

end Session

/-! ### What nothing binds is never bound -/

/-- The stage at which a container is its caller's. -/
private def Stage.released (stage : Stage) (container : Label) : Stage where
  next := stage.next
  owner label := if label = container then some .caller else stage.owner label
  closed label made query owned := by
    split at owned
    · cases owned
    · exact stage.closed label made query owned

private theorem Stage.Owns.released {stage : Stage} {container label : Label} {owner : Owner} (owns : stage.Owns owner label)
    (other : label ≠ container) : (stage.released container).Owns owner label :=
  ⟨owns.1, (if_neg other).trans owns.2⟩

namespace Custody

variable {custody : Custody} {stage : Stage} {session : Session} {container : Label}

section Release

variable (tracked : custody.tracked) (owned : stage.owner container = some .bound)
include owned

private theorem admits_released {value : Value} (admits : custody.Admits stage value) (spares : value.Spares container) :
    custody.Admits (stage.released container) value where
  object := admits.object
  predicate tracked label text held values same bound member := by
    have good := admits.predicate tracked label text held values same bound member
    refine ⟨good.1, fun inside there => (good.2 inside there).released ?_⟩
    rintro rfl
    exact spares label text held values same (Value.mem_containersOfAll.mpr ⟨bound, member, there⟩)
  query tracked label text held values same inside member := by
    have owns := admits.query tracked label text held values same inside member
    refine owns.released ?_
    rintro rfl
    have impossible := owns.2.symm.trans owned
    cases impossible

private theorem everywhere_released {value : Value} (all : value.Everywhere (custody.Admits stage))
    (spares : value.Everywhere (Value.Spares container)) : value.Everywhere (custody.Admits (stage.released container)) :=
  fun part member => admits_released owned (all part member) (spares part member)

include tracked

/-- A container that nothing binds may as well be its caller's, and so it stays. -/
private theorem together_released (hands : Label → Prop) :
    Rules.Together (custody.rules stage hands) (Rules.sparing container) (custody.rules (stage.released container) hands) where
  bound value binds out := by
    refine ⟨Value.everywhere_of_bindable free value (binds.bindable tracked), binds.bindable, fun tracked label inside => ?_⟩
    refine (binds.owned tracked label inside).released ?_
    rintro rfl
    exact out inside
  other value all spares := everywhere_released owned all spares
  finished query finishes spares := by
    refine ⟨⟨everywhere_released owned finishes.sound.text spares.text, fun value member =>
      everywhere_released owned (finishes.sound.values value member) (spares.values value member)⟩, fun tracked => ?_⟩
    refine (finishes.owned tracked).imp fun label all inside member => (all inside member).released ?_
    rintro rfl
    have impossible := (all inside member).2.symm.trans owned
    cases impossible
  hands _ held _ := held

private theorem Reached.released (reached : custody.Reached stage session) (unbound : session.Unbound container) :
    custody.Reached (stage.released container) session where
  next := reached.next
  started := reached.started
  made := reached.made
  objects label object given seen :=
    (reached.objects label object given seen).together (unbound.objects label object given) (together_released tracked owned _)
  own label object given mine :=
    (reached.own label object given mine).together (unbound.objects label object given) (together_released tracked owned _)
  others := reached.others
  defaults := reached.defaults
  bindings named name value given := everywhere_released owned (reached.bindings named name value given) (unbound.bindings name value given)

end Release

private theorem sparing_of_next_le (tracked : custody.tracked) (coming : stage.next ≤ container) (hands : Label → Prop) :
    (custody.rules stage hands).Implies (Rules.sparing container) := by
  have spares (value : Value) (all : value.Everywhere (custody.Admits stage)) : value.Everywhere (Value.Spares container) := by
    rintro part member label text held values rfl inside
    obtain ⟨bound, there, within⟩ := Value.mem_containersOfAll.mp inside
    have owns := ((all _ member).predicate tracked label text held values rfl bound there).2 container within
    exact absurd owns.1 (Nat.not_lt.mpr coming)
  refine ⟨fun value binds inside => absurd (binds.owned tracked container inside).1 (Nat.not_lt.mpr coming), spares,
    fun query finishes => ⟨spares _ finishes.sound.text, fun value member => spares value (finishes.sound.values value member)⟩, fun _ _ => trivial⟩

/-- What has not been made yet is bound nowhere in a session. -/
theorem Reached.spares (reached : (whole True).Reached stage session) (coming : stage.next ≤ container) :
    (∀ name value, session.bindings.lookup name = some value → value.Everywhere (Value.Spares container)) ∧
      ∀ label object, session.stored? label = some object → object.Under (Rules.sparing container) := by
  have weaker : ((whole True).rules stage fun _ => True).Implies (Rules.sparing container) := sparing_of_next_le trivial coming _
  exact ⟨fun name value given => weaker.other value (reached.bindings trivial name value given),
    fun label object given => (reached.objects label object given trivial).mono weaker⟩

/-- A container that nothing binds is not among those that belong to bound values. -/
theorem exists_reached_unbound (reachable : session.Reachable False) (unbound : session.Unbound container) :
    ∃ stage, (whole True).Reached stage session ∧ container < stage.next ∧ stage.owner container ≠ some .bound := by
  obtain ⟨stage, reached⟩ : ∃ stage, (whole True).Reached stage session := exists_reached reachable False.elim
  have made : container < stage.next := reached.next ▸ unbound.made
  by_cases owned : stage.owner container = some .bound
  · refine ⟨stage.released container, reached.released trivial owned unbound, made, ?_⟩
    simp [Stage.released]
  · exact ⟨stage, reached, made, owned⟩

/-- What has come about in steps is reached at a later stage. -/
theorem Reached.continues {later : Session} (reached : (whole True).Reached stage session)
    (continued : Relation.ReflTransGen Session.Continues session later) : ∃ after, stage ≤ after ∧ (whole True).Reached after later := by
  induction continued with
  | refl => exact ⟨stage, le_rfl, reached⟩
  | tail _ next ih =>
    obtain ⟨between, ahead, there⟩ := ih
    obtain ⟨quiet, step, sound, rfl⟩ := next
    obtain ⟨after, further, last⟩ := exists_reached_answer trivial False.elim there quiet sound
    exact ⟨after, ahead.trans further, last⟩

/-- What custody knows of bound values, with what is asked of names and of finished queries: a change in place of a container that belongs to no bound value reaches none of these. -/
private theorem together_fixed (tracked : custody.tracked) (owned : stage.owner container ≠ some .bound) (hands : Label → Prop)
    (change : Value → Value) :
    Rules.Together (custody.rules stage hands) (Rules.apart container) (Rules.fixed (Value.changed container change)) where
  bound value binds _ := Value.changed_of_not_mem change value (binds.bindable tracked) fun inside => owned (binds.owned tracked container inside).2
  other value _ out := Value.changed_of_holds_eq_false change value out
  finished query _ out := by
    obtain ⟨text, values⟩ := query
    have same : values.map (Value.changed container change) = values :=
      (List.map_congr_left fun value member => Value.changed_of_holds_eq_false change value (out.2 value member)).trans (List.map_id' values)
    exact congrArg₂ BuiltQuery.mk (Value.changed_of_holds_eq_false change text out.1) same
  hands _ _ _ := trivial

/-- An object that a container is apart from is not changed with the container, unless this belongs to bound values. -/
theorem Reached.mapValues_eq (reached : (whole True).Reached stage session) (owned : stage.owner container ≠ some .bound)
    {label : Label} {object : Object} (stored : session.stored? label = some object) (apart : object.Under (Rules.apart container))
    (change : Value → Value) : object.mapValues (Value.changed container change) = object :=
  ((reached.objects label object stored trivial).together apart (together_fixed trivial owned _ change)).mapValues_eq

end Custody

/-! ### Objects as they are after a change -/

namespace Object

private theorem face_eq {read : Value → Value} {object object' : Object} (kind : object'.kindName = object.kindName)
    (shown : object'.shown read = object.shown read) (length : object'.length? = object.length?) :
    object'.face read = object.face read := by
  rw [face, face, kind, shown, length]

/-- What an object looks like depends on its values only if it is a column. -/
theorem face_mapValues (read f : Value → Value) {object : Object} (kept : ∀ column, object = .column column → column.mapValues f = column) :
    (object.mapValues f).face read = object.face read := by
  cases object with
  | column c => exact congrArg (fun c => (Object.column c).face read) (kept c rfl)
  | chain c => exact face_eq rfl rfl (congrArg some (List.length_map _))
  | query q =>
    obtain ⟨statement⟩ := q
    rw [mapValues, Query.mapValues_of]
    cases statement with
    | compound s => exact face_eq rfl rfl (congrArg some (List.length_map _))
    | _ => rfl
  | cte c => rfl
  | ctes cs => exact face_eq rfl rfl (congrArg some (List.length_map _))
  | table t => cases t <;> rfl
  | queryMaker _ | tableMaker _ => rfl

end Object

namespace Session

variable {session : Session} {container : Label} {change : Value → Value}

private theorem depth_change : (session.change container change).depth = session.depth := by
  simp [depth, Session.change]

private theorem faceWithin_change (columns : ∀ label column, session.stored? label = some (.column column) →
    column.mapValues (Value.changed container change) = column) (depth : Nat) :
    (session.change container change).faceWithin depth = session.faceWithin depth := by
  induction depth with
  | zero => rfl
  | succ depth ih =>
    funext label
    rw [faceWithin, faceWithin, ih, stored?_change, Option.map_map]
    cases stored : session.stored? label with
    | none => rfl
    | some object => exact congrArg some (Object.face_mapValues _ _ fun column same => columns label column (stored.trans (congrArg some same)))

private theorem chain?_change (chains : ∀ label chain, session.stored? label = some (.chain chain) →
    chain.mapValues (Value.changed container change) = chain) : (session.change container change).chain? = session.chain? := by
  funext label
  rw [chain?, chain?, stored?_change]
  cases stored : session.stored? label with
  | none => rfl
  | some object =>
    cases object with
    | chain c => exact congrArg some (chains label c stored)
    | _ => rfl

/-- An object that is not changed is as it was, if no chain and no column is changed either. -/
private theorem object?_change (columns : ∀ label column, session.stored? label = some (.column column) →
      column.mapValues (Value.changed container change) = column)
    (chains : ∀ label chain, session.stored? label = some (.chain chain) → chain.mapValues (Value.changed container change) = chain)
    {label : Label} {object : Object} (stored : session.stored? label = some object)
    (kept : object.mapValues (Value.changed container change) = object) :
    (session.change container change).object? label = session.object? label := by
  have current : (session.change container change).current = session.current := by
    funext value
    rw [Session.current, Session.current, depth_change, faceWithin_change columns]
  rw [object?, object?, stored?_change, stored, chain?_change chains, current, Option.map_some, kept]

/-! ### What a literal makes -/

section Literals

/-- Nothing in a session binds a container, and its objects are those of another one. -/
private def Sparing (container : Label) (start : Session) (_ : Unit) (session : Session) : Prop :=
  session.stored? = start.stored? ∧
    ∀ name value, session.bindings.lookup name = some value → value.Everywhere (Value.Spares container)

private theorem sparing_evaluate (container : Label) (start : Session) {literal : Literal} (sound : literal.Sound) :
    Keeps (Sparing container start) () (evaluate literal) fun _ value => value.Everywhere (Value.Spares container) := by
  rintro ⟨⟩ - session ⟨same, spares⟩
  have known : ∀ name value, (session.bindings.lookup name).map session.current = some value →
      value.Everywhere (Value.Spares container) := by
    intro name value found
    obtain ⟨given, here, rfl⟩ := Option.map_eq_some_iff.mp found
    exact (spares name given here).refaced _ (Value.faceless_spares container) given
  obtain ⟨_, _, _, results⟩ := Literal.gives_evaluate (Value.ofHandles_spares container) known session.trace.nextLabel literal sound
    session.trace.nextLabel le_rfl session.trace rfl
  exact ⟨(), le_rfl, ⟨same, spares⟩, results⟩

/-- A container that a literal makes is bound by nothing when it has got its name. -/
theorem Reachable.unbound_of_assigned {session : Session} (reachable : session.Reachable False) (quiet : Bool) (name : Text)
    {literal : Literal} (sound : literal.Sound) {container : Label} (coming : session.trace.nextLabel ≤ container)
    (made : container < (session.answer quiet (.assign name literal)).2.trace.nextLabel) :
    (session.answer quiet (.assign name literal)).2.Unbound container := by
  obtain ⟨stage, reached⟩ : ∃ stage, (Custody.whole True).Reached stage session := Custody.exists_reached reachable False.elim
  obtain ⟨bindings, objects⟩ := reached.spares (reached.next ▸ coming)
  have named : Keeps (Sparing container session) () (perform (.assign name literal)) fun _ _ => True := by
    unfold perform
    refine (sparing_evaluate container session sound).bind fun _ _ value spares => ?_
    refine Keeps.bind ?_ fun _ _ _ (_ : True) => Keeps.pure fun _ _ => trivial
    rintro ⟨⟩ - before ⟨same, others⟩
    refine ⟨(), le_rfl, ⟨same, fun other given found => ?_⟩, fun _ _ => trivial⟩
    have entry : (if other = name then some value else before.bindings.lookup other) = some given :=
      (lookup_putEntry name other value before.bindings).symm.trans found
    split at entry
    · cases entry
      exact spares
    · exact others other given entry
  obtain ⟨⟨⟩, -, ⟨same, spares⟩, -⟩ := named () le_rfl { session with trace := { session.trace with latest := [] } } ⟨rfl, bindings⟩
  have after : (session.answer quiet (.assign name literal)).2 =
      ((perform (.assign name literal)).run { session with trace := { session.trace with latest := [] } }).2 := by
    unfold answer
    dsimp only
    split <;> next given => exact (congrArg Prod.snd given).symm
  rw [after] at made ⊢
  exact ⟨made, spares, fun label object stored => objects label object ((congrFun same label).symm.trans stored)⟩

end Literals

/-! ### Changes in place -/

/-- Who has taken a container out of a finished query, or had it before anything bound it: no bound value that is held later has the container in it. So, unless it lies in a name, a switch or a finished query that a builder holds, or in a column, a change in place of the container changes nothing of what calls of `build` give. -/
theorem Reachable.builds_after_change {earlier later : Session} (reachable : earlier.Reachable False)
    (continued : Relation.ReflTransGen Continues earlier later) {container : Label}
    (handed : earlier.Unbound container ∨ ∃ label text held values,
      later.Holds (.record label .builtQuery [text, .tuple held values]) ∧ container ∈ Value.containersOfAll values)
    (columns : ∀ label column, later.stored? label = some (.column column) → (Object.column column).Under (Rules.apart container))
    {label : Label} {object : Object} (stored : later.stored? label = some object) (alone : object.Alone)
    (apart : object.Under (Rules.apart container))
    {target : Text} {value : Value} (found : later.bindings.lookup target = some value) (labelled : value.label? = some container)
    (quiet : Bool) (key : Option Literal) (literal : Literal) (face face' : ObjectFace) :
    later.BuildsAs (.object label face) (later.answer quiet (.change target key literal)).2 (.object label face') := by
  obtain ⟨stage, reached, free⟩ : ∃ stage, (Custody.whole True).Reached stage later ∧ stage.owner container ≠ some .bound := by
    rcases handed with unbound | ⟨query, text, held, values, holds, member⟩
    · obtain ⟨stage, reached, made, free⟩ := Custody.exists_reached_unbound reachable unbound
      obtain ⟨after, ahead, there⟩ := reached.continues continued
      exact ⟨after, there, by rwa [ahead.2 container made]⟩
    · obtain ⟨stage, reached⟩ : ∃ stage, (Custody.whole True).Reached stage earlier := Custody.exists_reached reachable False.elim
      obtain ⟨after, _, there⟩ := reached.continues continued
      have owns := (there.admits trivial holds).query trivial query text held values rfl container member
      exact ⟨after, there, by simp [owns.2]⟩
  obtain ⟨shown, given, aloneShown⟩ : ∃ shown, later.object? label = some shown ∧ shown.Alone := by
    rw [object?, stored]
    refine ⟨_, rfl, ?_⟩
    cases object <;> trivial
  refine buildsAs_alone aloneShown given ?_ face face'
  rw [← given]
  rcases altered_answer later quiet target key literal with ⟨trace, same⟩ | ⟨about, changed, change, trace, here, there, same⟩
  · rw [same, object?_withTrace]
  · cases found.symm.trans here
    cases labelled.symm.trans there
    rw [same]
    refine (object?_withTrace _ trace label).trans ?_
    refine object?_change (fun label column stored => ?_) (fun label chain stored => ?_) stored (reached.mapValues_eq free stored apart change)
    · exact Object.column.inj (reached.mapValues_eq free stored (columns label column stored) change)
    · exact Object.chain.inj (reached.mapValues_eq free stored (fun _ _ _ _ => trivial) change)

/-- A list has a name. -/
private def listed : Session :=
  (answer {} true (.assign "x" (.list [.leaf (.int 1)]))).2

private def naming : Step :=
  .create "Statement" [] [] (some "s")

private def binding : Step :=
  .call "s" "and_" [.leaf (.text "a = ?"), .reference "x"] [] none

/-- A chain binds the list. -/
private def bound : Session :=
  ((listed.answer true naming).2.answer true binding).2

/-- The chain builds the same after the list has changed. -/
theorem builds_after_change_of_list :
    bound.BuildsAs (.object 2 ⟨"Statement", "<Statement>", true⟩) (bound.answer true (.change "x" none (.leaf (.int 2)))).2
      (.object 2 ⟨"Statement", "<Statement>", true⟩) := by
  have reachable : listed.Reachable False := .step (.start {} trivial trivial) true ⟨trivial, trivial⟩
  have given : (Literal.list [.leaf (.int 1)]).Sound := ⟨trivial, trivial⟩
  have unbound : listed.Unbound 0 := (Reachable.start {} trivial trivial).unbound_of_assigned true "x" given le_rfl (by decide)
  have sound : binding.Sound False :=
    ⟨List.forall_mem_cons.mpr ⟨trivial, List.forall_mem_singleton.mpr trivial⟩, forall_nothing⟩
  have continued : Relation.ReflTransGen Continues listed bound :=
    .tail (.single ⟨true, naming, ⟨forall_nothing, forall_nothing⟩, rfl⟩) ⟨true, binding, sound, rfl⟩
  have objects : bound.objects = [(2, .chain ⟨[(.and, ⟨.plain "a = ?", [.list 4 [.int 1]]⟩)]⟩)] := rfl
  have stored : bound.stored? 2 = some (.chain ⟨[(.and, ⟨.plain "a = ?", [.list 4 [.int 1]]⟩)]⟩) := rfl
  have found : bound.bindings.lookup ("x" : Text) = some (.list 0 [.int 1]) := rfl
  refine reachable.builds_after_change continued (.inl unbound) (fun label column given => ?_) stored trivial
    (fun _ _ _ _ => trivial) found rfl true none (.leaf (.int 2)) _ _
  rw [stored?, objects, List.lookup_cons] at given
  split at given <;> cases given

/-- A finished query over a list becomes the member of a union, and the list is taken out of it again. -/
private def sharing : List Step := [
  .create "BuiltQuery" [.leaf (.text "SELECT $1"), .list [.list [.leaf (.int 1)]]] [] (some "b"),
  .create "UnionQuery" [.leaf (.text "u")] [] (some "u"),
  .call "u" "add" [.reference "b"] [] none,
  .read "b" "values" (some (.leaf (.int 0))) (some "v")]

private def shared : Session :=
  sharing.foldl (fun session step => (session.answer true step).2) {}

private theorem reachable_foldl {steps : List Step} (sound : Step.SoundAll False steps) {session : Session}
    (reachable : session.Reachable False) : (steps.foldl (fun session step => (session.answer true step).2) session).Reachable False := by
  induction steps generalizing session with
  | nil => exact reachable
  | cons step steps ih => exact ih sound.2 (reachable.step true sound.1)

/-- The numbers in the one list that is bound. -/
private def numbers : Except Error Outcome → List Int
  | .ok (.value (.record _ .builtQuery [_, .tuple _ [.list _ items]])) => items.filterMap fun
    | .int n => some n
    | _ => none
  | _ => []

/-- A builder that has accepted a finished query does not keep what it builds: what is taken out of the values of the query is held by the builder as well, and changes there. -/
theorem builds_otherwise_after_change : ∃ (session : Session) (label held container : Label) (text value : Value) (values : List Value)
    (target name : Text) (key : Option Literal) (literal : Literal) (builder : Label) (face : ObjectFace),
    session.Reachable False ∧ session.Holds (.record label .builtQuery [text, .tuple held values]) ∧ value ∈ values ∧
      session.bindings.lookup target = some value ∧ value.label? = some container ∧
        session.bindings.lookup name = some (.object builder face) ∧
          ¬ session.BuildsAs (.object builder face) (session.answer true (.change target key literal)).2 (.object builder face) := by
  have sound : Step.SoundAll False sharing := by
    simp [sharing, Step.SoundAll, Step.Sound, Literal.Sound, Literal.SoundAll, Value.Single]
  have query : shared.bindings.lookup ("b" : Text) = some (.record 6 .builtQuery [.text "SELECT $1", .tuple 5 [.list 4 [.int 1]]]) := rfl
  have list : shared.bindings.lookup ("v" : Text) = some (.list 4 [.int 1]) := rfl
  have union : shared.bindings.lookup ("u" : Text) = some (.object 8 ⟨"UnionQuery", "<UnionQuery>", false⟩) := rfl
  refine ⟨shared, 6, 5, 4, .text "SELECT $1", .list 4 [.int 1], [.list 4 [.int 1]], "v", "u", none, .leaf (.int 2), 8, _,
    reachable_foldl sound (.start {} trivial trivial), .inl ⟨_, _, query, List.mem_cons_self⟩, List.mem_cons_self, list, rfl, union,
    fun same => ?_⟩
  have before : numbers ((invoke (.object 8 ⟨"UnionQuery", "<UnionQuery>", false⟩) "build" [] []).run { shared with trace := {} }).1 = [1] := by
    decide +kernel
  have after : numbers ((invoke (.object 8 ⟨"UnionQuery", "<UnionQuery>", false⟩) "build" [] []).run
      { (shared.answer true (.change "v" none (.leaf (.int 2)))).2 with trace := {} }).1 = [1, 2] := by
    decide +kernel
  rw [same [] [] {}, after] at before
  cases before

end Session

end SqlCompose
