import Mathlib
import SqlCompose.Proofs.ReachedSessions

/-!
# Sides of a session

Two parties work on one session by turns. Each has objects on its side, and what is made in the course of its turn comes to its side as well.

The sides are parted if they are disjoint and each is closed: all objects that those of a side refer to lie on that side, and so do the chains that they have adopted. A turn on objects of one side, with nothing of the other side among what is passed, leaves parted sides parted and the objects of the other side as they were (`separating_covers`), and what holds of every turn holds of turns in any order (`Turns.parted`, `Turns.kept`).
-/

namespace SqlCompose

/-- All objects that a value refers to are such as are allowed. -/
def Value.Refers (allowed : Label → Prop) (value : Value) : Prop :=
  value.Everywhere fun part => ∀ label face, part = .object label face → allowed label

/-- The rules for objects that refer to others, and adopt chains of others, only as allowed. -/
def Rules.referring (allowed : Label → Prop) : Rules where
  bound := Value.Refers allowed
  other := Value.Refers allowed
  finished query := query.Sound fun part => ∀ label face, part = .object label face → allowed label
  hands := allowed

theorem Value.Refers.mono {allowed allowed' : Label → Prop} {value : Value} (refers : value.Refers allowed)
    (more : ∀ label, allowed label → allowed' label) : value.Refers allowed' :=
  refers.imp fun _ objects label face same => more label (objects label face same)

theorem Rules.referring_implies {allowed allowed' : Label → Prop} (more : ∀ label, allowed label → allowed' label) :
    (Rules.referring allowed).Implies (Rules.referring allowed') :=
  ⟨fun _ refers => refers.mono more, fun _ refers => refers.mono more, fun _ sound => ⟨Value.Refers.mono sound.text more,
    fun value member => Value.Refers.mono (sound.values value member) more⟩, more⟩

/-- What is held in custody refers to objects that are seen and have been made. -/
theorem Custody.rules_referring {custody : Custody} {stage : Stage} {hands allowed : Label → Prop}
    (seen : ∀ label < stage.next, custody.seen label → allowed label) (held : ∀ label < stage.next, hands label → allowed label) :
    (custody.rules stage hands).Implies (Rules.referring allowed) := by
  have refers (value : Value) (all : value.Everywhere (custody.Admits stage)) : value.Refers allowed :=
    all.imp fun _ admits label face same => seen label (admits.object label face same).2 (admits.object label face same).1
  exact ⟨fun value binds => refers value binds.everywhere, refers, fun query finishes => ⟨refers _ finishes.sound.text,
    fun value member => refers value (finishes.sound.values value member)⟩, fun label given => held label given.2 given.1⟩

namespace Session

/-- Which labels lie on the side of each of two parties. -/
abbrev Sides := Bool → Label → Prop

/-- The sides after a party has made something under the labels from a first one on. -/
def Sides.grown (sides : Sides) (party : Bool) (first next : Label) : Sides :=
  fun other label => sides other label ∨ other = party ∧ first ≤ label ∧ label < next

/-- All objects in a value have been made, and are such as may be there. -/
def Made (session : Session) (allowed : Label → Prop) (value : Value) : Prop :=
  value.Refers fun label => allowed label ∧ label < session.trace.nextLabel

/-- A move that works on the objects of one side, and is given nothing but objects of this side. -/
structure Covers (session : Session) (side : Label → Prop) (move : Move) : Prop where
  handles : ∀ value ∈ move.handles, session.Made side value
  arguments : ∀ value ∈ move.arguments, session.Made side value

/-- The session after a move. -/
def moved (session : Session) (move : Move) : Session :=
  (move.perform.run session).2

/-- The sides after a move of a party. -/
def Sides.moved (sides : Sides) (session : Session) (party : Bool) (move : Move) : Sides :=
  sides.grown party session.trace.nextLabel (session.moved move).trace.nextLabel

/-- Which moves are permitted to a party. -/
abbrev Permits := Session → Sides → Bool → Move → Prop

/-- Moves on objects of one's own side that are given nothing but such objects. -/
def apart : Permits := fun session sides party move =>
  session.Covers (sides party) move

/-- Turns of the parties that are to move: which session and which sides they lead to. -/
inductive Turns (permits : Permits) (moving : Bool → Prop) (start : Session) (sides : Sides) : Session → Sides → Prop
  | none : Turns permits moving start sides start sides
  | next {session : Session} {sides' : Sides} (turns : Turns permits moving start sides session sides') {party : Bool}
      (turn : moving party) {move : Move} (permitted : permits session sides' party move) :
      Turns permits moving start sides (session.moved move) (sides'.moved session party move)

/-! ### The custody of a party -/

/-- The custody of the party that has a side. -/
def custody (session : Session) (side : Label → Prop) : Custody where
  mine label := side label ∨ session.trace.nextLabel ≤ label
  seen label := side label ∨ session.trace.nextLabel ≤ label
  seen_of_mine _ := id
  first := session.trace.nextLabel
  new _ := .inr
  others := session.stored?
  tracked := False
  named := False
  mine_of_named := False.elim

/-- How far a session has come, without regard to containers. -/
def stage (session : Session) : Stage :=
  ⟨session.trace.nextLabel, fun _ => none, by rintro _ _ _ ⟨⟩⟩

/-- Two sides that have nothing to do with each other. -/
structure Parted (session : Session) (sides : Sides) : Prop where
  made : ∀ party label, sides party label → label < session.trace.nextLabel
  apart : ∀ party label, sides party label → ¬ sides (!party) label
  stored : ∀ label object, session.stored? label = some object → label < session.trace.nextLabel
  closed : ∀ party label object, sides party label → session.stored? label = some object → object.Under (Rules.referring (sides party))
  defaults : session.defaults.compact.Single ∧ session.defaults.deep.Single

/-- What a permitted move does: the sides stay parted, and the objects of the other side stay as they were. -/
def Separating (permits : Permits) : Prop :=
  ∀ session sides party move, Parted session sides → permits session sides party move →
    (session.moved move).Parted (sides.moved session party move) ∧
      ∀ label, sides (!party) label → (session.moved move).stored? label = session.stored? label

variable {session : Session} {sides : Sides} {party : Bool} {move : Move}

private theorem made_implies {side : Label → Prop} (made : ∀ label, side label → label < session.trace.nextLabel) {hands : Label → Prop}
    (held : ∀ label, side label → hands label) :
    (Rules.referring side).Implies ((session.custody side).rules session.stage hands) := by
  have admits (value : Value) (refers : value.Refers side) : value.Everywhere ((session.custody side).Admits session.stage) :=
    refers.imp fun _ objects => ⟨fun label face same => ⟨.inl (objects label face same), made label (objects label face same)⟩,
      False.elim, False.elim⟩
  exact ⟨fun value refers => ⟨admits value refers, False.elim, False.elim⟩, admits, fun query sound =>
    ⟨⟨admits _ sound.text, fun value member => admits value (sound.values value member)⟩, False.elim⟩, fun label own => ⟨held label own, made label own⟩⟩

theorem Parted.reached (parted : session.Parted sides) (party : Bool) :
    (session.custody (sides party)).Reached session.stage session := by
  have own (label : Label) (object : Object) (stored : session.stored? label = some object)
      (mine : (session.custody (sides party)).mine label) : object.Under (Rules.referring (sides party)) :=
    parted.closed party label object (mine.resolve_right (Nat.not_le.mpr (parted.stored label object stored))) stored
  have weaker : (Rules.referring (sides party)).Implies ((session.custody (sides party)).rules session.stage (session.custody (sides party)).mine) :=
    made_implies (parted.made party) fun _ => .inl
  exact ⟨rfl, le_rfl, parted.stored, fun label object stored mine => (own label object stored mine).mono weaker,
    fun label object stored mine => (own label object stored mine).mono weaker, fun _ _ => rfl, parted.defaults, False.elim⟩

theorem Covers.inCustody {side : Label → Prop} (covers : session.Covers side move) : (session.custody side).Covers session.stage move := by
  have admits (value : Value) (made : session.Made side value) : value.Everywhere ((session.custody side).Admits session.stage) :=
    made.imp fun _ objects => ⟨fun label face same => ⟨.inl (objects label face same).1, (objects label face same).2⟩, False.elim, False.elim⟩
  refine ⟨fun value member => ⟨admits value (covers.handles value member), ?_⟩, fun value member => admits value (covers.arguments value member)⟩
  rintro label face rfl
  exact .inl ((covers.handles _ member).self label face rfl).1

/-- What a party leaves behind it in its own custody: the other side is as it was, and both are still parted. -/
theorem Parted.after (parted : session.Parted sides) {stage : Stage} (ahead : session.stage ≤ stage)
    (there : (session.custody (sides party)).Reached stage (session.moved move)) :
    (session.moved move).Parted (sides.moved session party move) ∧
      ∀ label, sides (!party) label → (session.moved move).stored? label = session.stored? label := by
  have next : (session.moved move).trace.nextLabel = stage.next := there.next
  have grown : session.trace.nextLabel ≤ (session.moved move).trace.nextLabel := next ▸ ahead.1
  have kept : ∀ label, sides (!party) label → (session.moved move).stored? label = session.stored? label := by
    refine fun label other => there.others label ?_
    rintro (own | made)
    · exact parted.apart party label own other
    · exact absurd (parted.made _ label other) (Nat.not_lt.mpr made)
  refine ⟨⟨?_, ?_, fun label object given => next ▸ there.made label object given, ?_, there.defaults⟩, kept⟩
  · rintro other label (before | ⟨-, -, made⟩)
    · exact (parted.made other label before).trans_le grown
    · exact made
  · rintro other label (before | ⟨rfl, first, -⟩) (also | ⟨same, first', -⟩)
    · exact parted.apart other label before also
    · exact absurd (parted.made other label before) (Nat.not_lt.mpr first')
    · exact absurd (parted.made _ label also) (Nat.not_lt.mpr first)
    · exact Bool.not_ne_self other same
  · intro other label object own given
    by_cases same : other = party
    · subst same
      have inside : ∀ label < stage.next, (session.custody (sides other)).mine label → sides.moved session other move other label :=
        fun label made mine => mine.imp_right fun coming => ⟨rfl, coming, next ▸ made⟩
      exact (there.own label object given (own.imp_right fun grown => grown.2.1)).mono (Custody.rules_referring inside inside)
    · obtain rfl : other = !party := Bool.eq_not_of_ne same
      have here : sides (!party) label := own.resolve_right fun grown => same grown.1
      rw [kept label here] at given
      exact (parted.closed (!party) label object here given).mono (Rules.referring_implies fun _ => .inl)

/-- A party that keeps to its side leaves the other one alone. -/
theorem separating_apart : Separating apart := by
  intro session sides party move parted permitted
  obtain ⟨stage, ahead, there, -⟩ := Custody.allows_move permitted.inCustody session.stage le_rfl session (parted.reached party)
  exact parted.after ahead there

/-! ### Turns -/

section Turns

variable {permits : Permits} {moving : Bool → Prop} {later : Session} {sides' : Sides}

theorem Turns.parted (separating : Separating permits) (turns : Turns permits moving session sides later sides')
    (parted : session.Parted sides) : later.Parted sides' := by
  induction turns with
  | none => exact parted
  | next _ _ permitted ih => exact (separating _ _ _ _ ih permitted).1

/-- Turns of one party leave the objects of the other one as they were, and on its side. -/
theorem Turns.kept (separating : Separating permits) (turns : Turns permits (· = !party) session sides later sides')
    (parted : session.Parted sides) {label : Label} (own : sides party label) :
    sides' party label ∧ later.stored? label = session.stored? label := by
  induction turns with
  | none => exact ⟨own, rfl⟩
  | next turns turn permitted ih =>
    cases turn
    obtain ⟨here, kept⟩ := ih
    refine ⟨.inl here, ((separating _ _ _ _ (turns.parted separating parted) permitted).2 label ?_).trans kept⟩
    rwa [Bool.not_not]

end Turns

end Session

end SqlCompose
