import Mathlib
import SqlCompose.Proofs.Clones
import SqlCompose.Proofs.HandedObjects

/-!
# Composites

A composite is put together from other objects: a statement from the statements inside it, its expressions and its conditions, a set of expressions from these, a chain from other chains and statements. What it is given by one party it may have from the other one: such a turn leaves parted sides parted, as a turn does that is given nothing from there (`separating_lending`). So whatever the parties do afterwards, what one of them does to what it has handed over does not change what has been composed from it, and the other way round (`composites_independent`).
-/

namespace SqlCompose.Session

variable {session : Session} {sides : Sides} {party : Bool} {move : Move} {label : Label}

/-- An object of the other party that refers to no other object. -/
def Lent (session : Session) (sides : Sides) (party : Bool) (label : Label) : Prop :=
  sides (!party) label ∧ ∃ object, session.held? label = some object ∧ object.Under Rules.plain

/-- All objects in it are on one's own side. -/
def Own (sides : Sides) (party : Bool) (part : Value) : Prop :=
  ∀ label face, part = .object label face → sides party label

/-- The objects in it are on one's own side, or lent and no part of a predicate or a finished query. -/
structure Offered (session : Session) (sides : Sides) (party : Bool) (part : Value) : Prop where
  object : ∀ label face, part = .object label face → session.Lent sides party label ∨ sides party label
  record : ∀ label kind fields, part = .record label kind fields → kind = .predicate ∨ kind = .builtQuery → part.Everywhere (Own sides party)

/-- Objects of the other side are handed to a method where it takes them over, or to what is created from them. -/
inductive HandsOver (session : Session) (sides : Sides) (party : Bool) : Move → Prop
  | call {label : Label} {face : ObjectFace} {object : Object} {name : Text} {intake : Intake} {method : Method (Act Outcome)}
      {values : List Value} {named : List (Text × Value)} (own : sides party label) (shown : session.object? label = some object)
      (takes : TakesOver object name intake) (found : (objectMethods label object).lookup name = some method)
      (given : ∀ arguments, method.signature.bind values named = .ok arguments → arguments.Fits intake (session.Offered sides party) (Own sides party)) :
      HandsOver session sides party (.call (.object label face) name values named)
  | create {kind : Text} {intake : Intake} {method : Method (Act Outcome)} {values : List Value} {named : List (Text × Value)}
      (takes : CreatedOver kind intake) (found : creators.lookup kind = some method)
      (given : ∀ arguments, method.signature.bind values named = .ok arguments → arguments.Fits intake (session.Offered sides party) (Own sides party)) :
      HandsOver session sides party (.create kind values named)

/-- Moves on objects of one's own side that are given nothing but such objects, unless they take over what they are given. -/
def lending : Permits := fun session sides party move =>
  session.Covers (sides party) move ∨ session.HandsOver sides party move

/-! ### Sides stay parted -/

/-- Whatever a party does, what the other one lends stays as it is. -/
theorem Parted.lends (parted : session.Parted sides) (party : Bool) :
    (session.custody (sides party)).Lends (session.Lent sides party) := by
  rintro stage session' reached label ⟨other, object, held, plain⟩
  have kept (label : Label) (other : sides (!party) label) : session'.stored? label = session.stored? label := by
    refine reached.others label ?_
    rintro (own | coming)
    · exact parted.apart party label own other
    · exact absurd (parted.made _ label other) (Nat.not_lt.mpr coming)
  obtain ⟨stored, found, rfl⟩ := Option.map_eq_some_iff.mp held
  have chains (label : Label) (other : sides (!party) label) : session'.chain? label = session.chain? label := by
    rw [chain?, chain?, kept label other]
  have held' : session'.held? label = some (stored.resolved session.chain?) := by
    rw [held?, kept label other, found]
    exact congrArg some ((parted.closed _ label stored other found).resolved_congr chains)
  exact ⟨_, object?_of_plain held' plain, plain⟩

private theorem fits_inCustody (parted : session.Parted sides) {arguments : Arguments} {intake : Intake}
    (fits : arguments.Fits intake (session.Offered sides party) (Own sides party)) :
    arguments.Fits intake ((session.custody (sides party)).Offers (session.Lent sides party) session.stage)
      ((session.custody (sides party)).Admits session.stage) := by
  have admits (part : Value) (own : Own sides party part) : (session.custody (sides party)).Admits session.stage part :=
    ⟨fun label face same => ⟨.inl (own label face same), parted.made party label (own label face same)⟩, False.elim, False.elim⟩
  refine fits.imp (fun part offered => ⟨fun label face same => ?_, fun label kind fields same taken => ?_⟩) admits
  · exact (offered.object label face same).imp_right fun own => ⟨.inl own, parted.made party label own⟩
  · exact (offered.record label kind fields same taken).imp admits

/-- No method that takes over what it is given is an attribute as well. -/
private theorem unread_of_takesOver {object : Object} {name : Text} {intake : Intake} (takes : TakesOver object name intake) :
    (objectAttributes object).lookup name = none := by
  cases takes with
  | conditions query named =>
    obtain ⟨statement⟩ := query
    simp only [List.mem_cons, List.not_mem_nil, or_false] at named
    obtain rfl | rfl | rfl := named <;> cases statement <;> rfl
  | union query named =>
    obtain ⟨statement⟩ := query
    simp only [List.mem_cons, List.not_mem_nil, or_false] at named
    obtain rfl | rfl := named <;> cases statement <;> rfl
  | attached query | join query | subquery query | source query | member query | members query | membersOfType query =>
    obtain ⟨statement⟩ := query
    cases statement <;> rfl
  | links _ named | existence _ named =>
    simp only [List.mem_cons, List.not_mem_nil, or_false] at named
    obtain rfl | rfl := named <;> rfl
  | statements | query | expressions | expression | newCte | newCtes => rfl

/-- A party that is handed objects of the other one where they are taken over leaves it alone. -/
theorem separating_lending : Separating lending := by
  rintro session sides party move parted (covers | hands)
  · exact separating_apart session sides party move parted covers
  have reached := parted.reached party
  have lends := parted.lends party
  /- The arguments do not fit the method, and nothing happens, or it does what it is permitted. -/
  have called {method : Method (Act Outcome)} {intake : Intake} {values : List Value} {named : List (Text × Value)}
      (permits : (session.custody (sides party)).PermitsLent (session.Lent sides party) session.stage intake method)
      (given : ∀ arguments, method.signature.bind values named = .ok arguments → arguments.Fits intake (session.Offered sides party) (Own sides party))
      (ran : ∀ arguments, method.signature.bind values named = .ok arguments →
        move.perform.run session = (method.run arguments).run session)
      (refused : ∀ error, method.signature.bind values named = .error error → move.perform.run session = (.error error, session)) :
      ∃ stage, session.stage ≤ stage ∧ (session.custody (sides party)).Reached stage (session.moved move) := by
    cases bound : method.signature.bind values named with
    | error error =>
      rw [moved, refused error bound]
      exact ⟨session.stage, le_rfl, reached⟩
    | ok arguments =>
      obtain ⟨stage, ahead, there, -⟩ := permits arguments (fits_inCustody parted (given arguments bound)) session.stage le_rfl session reached
      rw [moved, ran arguments bound]
      exact ⟨stage, ahead, there⟩
  obtain ⟨stage, ahead, there⟩ : ∃ stage, session.stage ≤ stage ∧ (session.custody (sides party)).Reached stage (session.moved move) := by
    cases hands with
    | call own shown takes found given =>
      have under := (reached.object shown).2.2 (.inl own)
      have invoked := fun face values named => run_invoke shown face (unread_of_takesOver takes) found values named
      refine called (Custody.methods_lent lends not_false (.inl own) under takes found) given ?_ ?_ <;>
      · intro outcome bound
        rw [Move.perform, invoked, bound]
    | @create kind intake method values named takes found given =>
      refine called (Custody.creators_lent lends not_false takes found) given ?_ ?_ <;>
      · intro outcome bound
        rw [Move.perform, Methods.call, found]
        dsimp only
        rw [bound]
        rfl
  exact parted.after ahead there

/-! ### Independence -/

/-- Two parties that divide what a script has come to between them. Neither of them has an object that refers to one of the other, or that shares a chain with it. -/
structure Divides (session : Session) (sides : Sides) : Prop where
  made : ∀ party label, sides party label → label < session.trace.nextLabel
  apart : ∀ party label, sides party label → ¬ sides (!party) label
  closed : ∀ party label object, sides party label → session.stored? label = some object → object.Under (Rules.referring (sides party))

theorem Divides.parted (divides : session.Divides sides) {changing : Prop} (reachable : session.Reachable changing) : session.Parted sides := by
  obtain ⟨stage, reached⟩ : ∃ stage, (Custody.whole False).Reached stage session := Custody.exists_reached reachable fun _ => id
  exact ⟨divides.made, divides.apart, fun label object given => (reached.made label object given).trans_eq reached.next.symm, divides.closed, reached.defaults⟩

/-- Two parties divide what a script has come to between them, and work on it by turns. To the methods that take over what they are given they may hand objects of the other one; otherwise each uses its own objects only. Then nothing that one of them has ever refers to what the other one has, and turns of one of them, whether it goes on with what it has handed over or with what it has been handed, do not change what a plain object of the other one builds. -/
theorem composites_independent {changing : Prop} (reachable : session.Reachable changing) (divides : session.Divides sides) {later : Session}
    {sides' : Sides} (turns : Turns lending (fun _ => True) session sides later sides') :
    later.Divides sides' ∧ ∀ party latest sides'', Turns lending (· = !party) later sides' latest sides'' → ∀ label, sides' party label →
      later.Plain label → ∀ face, later.BuildsAs (.object label face) latest (.object label face) := by
  have parted := turns.parted separating_lending (divides.parted reachable)
  exact ⟨⟨parted.made, parted.apart, parted.closed⟩, fun party latest sides'' further label own plain face =>
    parted.buildsAs separating_lending further own plain face⟩

/-- A session with a statement, and an expression that has none yet. -/
private def composing : Session :=
  ((answer {} true (.create "SelectQuery" [.leaf (.text "t")] [] (some "c"))).2.answer true (.create "Cte" [.leaf (.text "x")] [] (some "p"))).2

/-- The expression belongs to one party, and the statement to the other. -/
private def composers : Sides := fun party label =>
  label = if party then 1 else 3

private def composition : Move :=
  .call (.object 3 ⟨"Cte", "<Cte>", true⟩) "with_query" [.object 1 ⟨"SelectQuery", "<SelectQuery>", true⟩] []

private theorem plain_select {rules : Rules} (other : ∀ value : Value, value.Plain → rules.other value) :
    (Query.of (.select { table := .text "t" })).Under rules := by
  have named : rules.other (.text "t") := other _ (List.forall_mem_singleton.mpr fun _ _ => nofun)
  have flag : rules.other (.bool false) := other _ (List.forall_mem_singleton.mpr fun _ _ => nofun)
  have null : rules.other .null := other _ (List.forall_mem_singleton.mpr fun _ _ => nofun)
  refine .of ⟨?_, forall_nothing, forall_nothing, forall_nothing, ?_, ?_, ?_, forall_nothing, forall_nothing, nofun⟩ forall_nothing
  · rintro _ ⟨⟩
    exact ⟨forall_nothing, flag, flag⟩
  · exact List.forall_mem_cons.mpr ⟨⟨forall_nothing, nofun⟩, List.forall_mem_singleton.mpr ⟨forall_nothing, nofun⟩⟩
  · exact List.forall_mem_cons.mpr ⟨named, List.forall_mem_singleton.mpr null⟩
  · exact List.forall_mem_cons.mpr ⟨flag, List.forall_mem_singleton.mpr flag⟩

private theorem composing_divides : composing.Divides composers where
  made := by
    rintro (_ | _) label rfl
    · exact (by decide : (3 : Label) < 4)
    · exact (by decide : (1 : Label) < 4)
  apart := by
    rintro (_ | _) label rfl
    · exact (by decide : (3 : Label) ≠ 1)
    · exact (by decide : (1 : Label) ≠ 3)
  closed := by
    rintro (_ | _) label object rfl given
    · cases given
      refine ⟨⟨?_, ?_⟩, nofun⟩ <;> exact List.forall_mem_singleton.mpr fun _ _ => nofun
    · cases given
      exact ⟨plain_select fun value plain => plain.mono fun _ => False.elim, nofun⟩

private theorem composing_hands : composing.HandsOver composers false composition := by
  have handed : composing.Offered composers false (.object 1 ⟨"SelectQuery", "<SelectQuery>", true⟩) := by
    refine ⟨?_, nofun⟩
    rintro _ _ ⟨⟩
    exact .inl ⟨rfl, _, rfl, plain_select fun _ => id, nofun⟩
  refine .call rfl rfl (.query _) rfl fun arguments bound => ?_
  cases bound
  refine ⟨List.forall_mem_singleton.mpr (List.forall_mem_singleton.mpr handed), fun name other => ?_, nofun⟩
  have unnamed (value : Value) : List.lookup name [(("query" : Text), value)] = none := by
    rw [List.lookup_cons, beq_eq_false_iff_ne.mpr fun same => other (List.mem_singleton.mpr same)]
    rfl
  have null : Value.null.Everywhere (Own composers false) := List.forall_mem_singleton.mpr fun _ _ => nofun
  exact (congrArg (fun found => (found.getD Value.null).Everywhere (Own composers false)) (unnamed _)).mpr null

/-- A change of the statement, once it has been handed over. -/
private def alteration : Move :=
  .call (.object 1 ⟨"SelectQuery", "<SelectQuery>", true⟩) "from_" [.text "u"] []

/-- The expression is given the statement of the other party, which goes on to change it. The expression builds what it built before the change. -/
theorem composites_independent_cte : (composing.moved composition).BuildsAs (.object 3 ⟨"Cte", "<Cte>", true⟩)
    ((composing.moved composition).moved alteration) (.object 3 ⟨"Cte", "<Cte>", true⟩) := by
  have first : (Step.create "SelectQuery" [.leaf (.text "t")] [] (some "c")).Sound False := ⟨List.forall_mem_singleton.mpr trivial, forall_nothing⟩
  have second : (Step.create "Cte" [.leaf (.text "x")] [] (some "p")).Sound False := ⟨List.forall_mem_singleton.mpr trivial, forall_nothing⟩
  have reachable : composing.Reachable False := .step (.step (.start {} trivial trivial) true first) true second
  have turns : Turns lending (fun _ => True) composing composers (composing.moved composition) (composers.moved composing false composition) :=
    .next .none trivial (.inr composing_hands)
  have plain : (composing.moved composition).Plain 3 := by
    refine ⟨.cte ⟨.text "x", some (.of (.select { table := .text "t" })), .bool false⟩, rfl, ⟨?_, ?_⟩, ?_⟩
    · exact List.forall_mem_singleton.mpr fun _ _ => nofun
    · exact List.forall_mem_singleton.mpr fun _ _ => nofun
    · rintro _ ⟨⟩
      exact plain_select fun _ => id
  have further : Turns lending (· = true) (composing.moved composition) (composers.moved composing false composition)
      ((composing.moved composition).moved alteration)
      ((composers.moved composing false composition).moved (composing.moved composition) true alteration) := by
    have made : (composing.moved composition).Made (composers.moved composing false composition true)
        (.object 1 ⟨"SelectQuery", "<SelectQuery>", true⟩) := by
      refine List.forall_mem_singleton.mpr ?_
      rintro _ _ ⟨⟩
      exact ⟨Or.inl rfl, (by decide : (1 : Label) < 4)⟩
    have covers : (composing.moved composition).Covers (composers.moved composing false composition true) alteration :=
      ⟨List.forall_mem_singleton.mpr made, List.forall_mem_singleton.mpr (List.forall_mem_singleton.mpr fun _ _ => nofun)⟩
    have permitted : lending (composing.moved composition) (composers.moved composing false composition) true alteration := .inl covers
    refine .next .none ?_ permitted
    rfl
  exact (composites_independent reachable composing_divides turns).2 false _ _ further 3 (.inl rfl) plain _

end SqlCompose.Session
