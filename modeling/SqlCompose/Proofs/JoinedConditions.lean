import Mathlib
import SqlCompose.Proofs.ConditionMeaning
import SqlCompose.Query.Edit

/-!
# What joined conditions mean

Two ways to join conditions do not say what they seem to say. The operators on predicates write the texts of their operands side by side in one pair of parentheses, so an `OR` of an operand stays in reach of the `AND` between them. And the first chain that a statement is given becomes its whole clause, so every later condition joins the last alternative of that chain only.

Both are stated exactly here, with the case in which they mean what was meant: a disjunction is one always, and a conjunction is one as long as no `OR` joins parts of its operands.
-/

namespace SqlCompose

open Token Build

variable (truth : List Lexeme → Bool)

/-- A comparison with a number. -/
private def compareWith (text : Text) (n : Int) : Predicate :=
  ⟨.plain text, [.int n]⟩

/-- The truth in which only those factors hold that begin with a letter. -/
private def onlyFactor (letter : Char) : List Lexeme → Bool
  | .word letters :: _ => letters == [letter]
  | _ => false

/-- Two comparisons of which one must hold. -/
private def eitherOr : Chain :=
  ⟨[(.and, compareWith "b = ?" 2), (.or, compareWith "c = ?" 3)]⟩

/-! ### Operators on predicates -/

namespace Predicate

/-- Whether a predicate holds, when the truth of its factors is known. -/
def holds (predicate : Predicate) : Bool :=
  Lexeme.holds truth predicate.lexemes

/-- A disjunction of predicates is one; a conjunction joins the last alternative of one to the first of the other. -/
theorem holds_combine {left right : Predicate} (first : left.Readable) (second : right.Readable) :
    (∀ predicate, (combine .or left right).Yields predicate →
      predicate.holds truth = (left.holds truth || right.holds truth)) ∧
    ∀ predicate, (combine .and left right).Yields predicate → predicate.holds truth =
      (Lexeme.earlierHolds truth left.lexemes ||
        Lexeme.lastHolds truth left.lexemes && Lexeme.firstHolds truth right.lexemes ||
        Lexeme.laterHolds truth right.lexemes) := by
  constructor
  · intro predicate made
    rw [holds, (lexemes_combine first second made).2, Lexeme.holds_group truth (first.even.joined second.even .or)]
    exact Lexeme.holds_or truth first.even _
  · intro predicate made
    rw [holds, (lexemes_combine first second made).2, Lexeme.holds_group truth (first.even.joined second.even .and)]
    exact Lexeme.holds_and truth first.even _

/-- With a chain of two alternatives on its right, a conjunction holds although its left side does not. -/
theorem combine_and_of_chain : ∃ chained predicate, ((Condition.chain eitherOr).toPredicate []).Yields chained ∧
    (combine .and (compareWith "a = ?" 1) chained).Yields predicate ∧ predicate.holds (onlyFactor 'c') = true ∧
    ((compareWith "a = ?" 1).holds (onlyFactor 'c') && chained.holds (onlyFactor 'c')) = false := by
  refine ⟨_, _, ⟨{}, _, rfl⟩, ⟨{}, _, rfl⟩, ?_, ?_⟩ <;> decide +kernel

end Predicate

/-- Predicates combined by operators. -/
inductive Combination where
  | operand (predicate : Predicate)
  | joined (connective : Connective) (left right : Combination)

namespace Combination

/-- What the operators make of a combination. -/
inductive Makes : Combination → Predicate → Prop
  | operand (predicate : Predicate) : Makes (operand predicate) predicate
  | joined {connective : Connective} {left right : Combination} {first second predicate : Predicate}
      (front : Makes left first) (back : Makes right second) (made : (Predicate.combine connective first second).Yields predicate) :
      Makes (joined connective left right) predicate

/-- What a combination means. -/
def holds : Combination → Bool
  | operand predicate => predicate.holds truth
  | joined .and left right => left.holds && right.holds
  | joined .or left right => left.holds || right.holds

/-- All operands are readable. -/
def Readable : Combination → Prop
  | operand predicate => predicate.Readable
  | joined _ left right => left.Readable ∧ right.Readable

/-- A combination is no operand in which an `OR` joins parts. -/
def Unmixed : Combination → Prop
  | operand predicate => Lexeme.Unmixed predicate.lexemes
  | joined _ _ _ => True

/-- Nothing under an `AND` is an operand in which an `OR` joins parts. -/
def Guarded : Combination → Prop
  | operand _ => True
  | joined .and left right => (left.Unmixed ∧ left.Guarded) ∧ right.Unmixed ∧ right.Guarded
  | joined .or left right => left.Guarded ∧ right.Guarded

variable {truth} {combination : Combination} {predicate : Predicate}

private theorem readable_of_makes (readable : combination.Readable) (makes : combination.Makes predicate) :
    predicate.Readable ∧ (combination.Unmixed → Lexeme.Unmixed predicate.lexemes) := by
  induction makes with
  | operand predicate => exact ⟨readable, id⟩
  | joined _ _ made first second =>
    obtain ⟨here, same⟩ := Predicate.lexemes_combine (first readable.1).1 (second readable.2).1 made
    refine ⟨here, fun _ => ?_⟩
    rw [same]
    exact Lexeme.unmixed_group ((first readable.1).1.even.joined (second readable.2).1.even _)

/-- Whatever is combined to any depth means what it says, if each operand of an `AND` is free of a joining `OR`. -/
theorem holds_of_makes (readable : combination.Readable) (guarded : combination.Guarded)
    (makes : combination.Makes predicate) : predicate.holds truth = combination.holds truth := by
  induction makes with
  | operand predicate => rfl
  | @joined connective left right first second predicate front back made ihLeft ihRight =>
    obtain ⟨here, single⟩ := readable_of_makes readable.1 front
    obtain ⟨there, single'⟩ := readable_of_makes readable.2 back
    cases connective with
    | or => rw [(Predicate.holds_combine truth here there).1 predicate made, ihLeft readable.1 guarded.1,
        ihRight readable.2 guarded.2, holds]
    | and =>
      obtain ⟨⟨unmixed, guarded⟩, unmixed', guarded'⟩ := guarded
      have first := single unmixed
      have second := single' unmixed'
      rw [(Predicate.holds_combine truth here there).2 predicate made, first.earlierHolds_eq, first.lastHolds_eq,
        second.firstHolds_eq, second.laterHolds_eq, Bool.false_or, Bool.or_false, holds, ← ihLeft readable.1 guarded,
        ← ihRight readable.2 guarded']
      rfl

private def nested : Combination :=
  joined .and (joined .or (operand (compareWith "a = ?" 1)) (operand (compareWith "b = ?" 2)))
    (operand (compareWith "c = ?" 3))

/-- A disjunction under a conjunction stays in its own parentheses. -/
theorem holds_of_makes_nested : ∃ predicate, nested.Makes predicate ∧ predicate.holds (onlyFactor 'a') = false := by
  have first : (compareWith "a = ?" 1).Readable := ⟨rfl, .of_clean (by decide) (by decide) (by decide +kernel)⟩
  have second : (compareWith "b = ?" 2).Readable := ⟨rfl, .of_clean (by decide) (by decide) (by decide +kernel)⟩
  have third : (compareWith "c = ?" 3).Readable := ⟨rfl, .of_clean (by decide) (by decide) (by decide +kernel)⟩
  have readable : nested.Readable := ⟨⟨first, second⟩, third⟩
  have unmixed : Lexeme.Unmixed (compareWith "c = ?" 3).lexemes := rfl
  have makes : nested.Makes _ := .joined (.joined (.operand _) (.operand _) ⟨{}, _, rfl⟩) (.operand _) ⟨{}, _, rfl⟩
  refine ⟨_, makes, ?_⟩
  rw [holds_of_makes readable ⟨⟨trivial, trivial, trivial⟩, unmixed, trivial⟩ makes]
  decide +kernel

end Combination

/-! ### Repeated conditions -/

namespace Condition

/-- How a condition with values reads, if it asks for anything at all. -/
def lexemes? (values : List Value) : Condition → Option (List Lexeme)
  | text t => some (reading values t.content)
  | predicate p => some p.lexemes
  | chain c => if c.isEmpty then none else some c.lexemes
  | _ => none

/-- What a condition with values means; an empty chain asks for nothing. -/
def holds (values : List Value) (condition : Condition) : Bool :=
  ((condition.lexemes? values).map (Lexeme.holds truth)).getD true

/-- A text, a predicate or a chain that can be read. -/
def Readable (values : List Value) : Condition → Prop
  | text t => t.printed = t.content ∧ Legible t.content values
  | predicate p => p.Readable
  | chain c => c.Readable
  | _ => False

/-- What a statement without conditions makes of a condition: a chain is taken as it is, and all else is set in parentheses. -/
def opening (values : List Value) : Condition → List Lexeme
  | chain c => c.lexemes
  | condition => Lexeme.group ((condition.lexemes? values).getD [])

variable {condition : Condition} {values : List Value}

/-- The predicate that a readable condition becomes reads like it. -/
theorem lexemes_toPredicate (readable : condition.Readable values) (asks : condition.isVacant values = false)
    {predicate : Predicate} (made : (condition.toPredicate values).Yields predicate) :
    predicate.Readable ∧ condition.lexemes? values = some predicate.lexemes := by
  cases condition with
  | text t =>
    obtain ⟨legibly, same⟩ := Predicate.readable_of_make made readable.1 readable.2
    exact ⟨legibly, congrArg some same.symm⟩
  | predicate p =>
    rw [toPredicate] at made
    split at made
    · rw [← yields_pure.mp made]
      exact ⟨readable, rfl⟩
    · exact absurd made not_yields_throw
  | chain c =>
    obtain ⟨collapsed, first, made⟩ := Yields.bind made
    split at made
    · next none =>
      have some : c.isEmpty = false := by simpa [isVacant, none] using asks
      obtain ⟨legibly, same⟩ := Chain.lexemes_toPredicate readable (by simpa [Chain.isEmpty] using some) first
      rw [← yields_pure.mp made]
      exact ⟨legibly, by simp [lexemes?, some, same]⟩
    · exact absurd made not_yields_throw
  | query _ => exact readable.elim
  | unbuildable => exact readable.elim
  | unusable => exact readable.elim

theorem even_of_lexemes? (readable : condition.Readable values) {lexemes : List Lexeme}
    (asks : condition.lexemes? values = some lexemes) : Lexeme.Even lexemes := by
  cases condition with
  | text t =>
    obtain rfl := Option.some.inj asks
    exact readable.2.even
  | predicate p =>
    obtain rfl := Option.some.inj asks
    exact Predicate.Readable.even readable
  | chain c =>
    rw [lexemes?] at asks
    split at asks
    · cases asks
    · obtain rfl := Option.some.inj asks
      exact Chain.even_lexemes readable
  | _ => cases asks

theorem even_opening (readable : condition.Readable values) (asks : (condition.lexemes? values).isSome) :
    Lexeme.Even (condition.opening values) := by
  obtain ⟨lexemes, same⟩ := Option.isSome_iff_exists.mp asks
  have even := even_of_lexemes? readable same
  cases condition with
  | chain c => exact Chain.even_lexemes readable
  | _ =>
    simp only [opening, same]
    exact even.group

/-- What the conditions begin with means what the first condition does. -/
theorem holds_opening {truth : List Lexeme → Bool} (readable : condition.Readable values)
    (asks : (condition.lexemes? values).isSome) :
    Lexeme.holds truth (condition.opening values) = condition.holds truth values := by
  obtain ⟨lexemes, same⟩ := Option.isSome_iff_exists.mp asks
  have even := even_of_lexemes? readable same
  rw [holds, same]
  cases condition with
  | chain c =>
    rw [lexemes?] at same
    split at same
    · cases same
    · obtain rfl := Option.some.inj same
      rfl
  | _ =>
    simp only [opening, same]
    exact Lexeme.holds_group truth even

theorem values_of_chain {chain : Chain} {predicate : Predicate}
    (made : ((Condition.chain chain).toPredicate values).Yields predicate) : values = [] := by
  obtain ⟨_, _, made⟩ := Yields.bind made
  split at made
  · next none => exact List.isEmpty_iff.mp none
  · exact absurd made not_yields_throw

end Condition

namespace Statement

/-- The conditions of a clause: nothing yet, or a readable chain that reads as said. -/
inductive Clausal : Option (List Lexeme) → Restriction → Prop
  | none {held : Held Chain} (empty : held.item.links = []) : Clausal none (.chain held)
  | some {held : Held Chain} (nonempty : held.item.links ≠ []) (readable : held.item.Readable) :
      Clausal (some held.item.lexemes) (.chain held)

/-- What a clause reads as when one more condition has been asked for. -/
def narrowed (clause : Option (List Lexeme)) (values : List Value) (condition : Condition) : Option (List Lexeme) :=
  match condition.lexemes? values, clause with
  | none, clause => clause
  | some _, none => some (condition.opening values)
  | some lexemes, some front => some (Lexeme.joined .and front (Lexeme.group lexemes))

variable {condition : Condition} {values : List Value}

/-- A condition is adopted, or linked to the conditions there are. -/
theorem restrict_cases {filter filter' : Restriction} (done : (restrict .and condition values filter).Yields filter') :
    (∃ chain, condition = .chain chain ∧ values = [] ∧ filter.isVacant = true ∧ filter' = .chain ⟨chain, none⟩) ∨
    (∀ chain, condition = .chain chain → values = [] → filter.isVacant = false) ∧
      (linkTo .and condition values filter).Yields filter' := by
  cases condition with
  | chain chain =>
    by_cases adopted : values = [] ∧ filter.isVacant = true
    · obtain ⟨rfl, vacant⟩ := adopted
      simp only [restrict, vacant] at done
      exact .inl ⟨chain, rfl, rfl, vacant, (yields_pure.mp done).symm⟩
    · have linked : (values.isEmpty && filter.isVacant) = false := by
        cases values <;> simp_all
      simp only [restrict, decide_true, Bool.true_and, linked] at done
      exact .inr ⟨fun _ _ none => by simpa [none] using linked, done⟩
  | _ => exact .inr ⟨fun _ same => by simp at same, done⟩

/-- Linking to a clause leaves it as it is, or puts one predicate behind it. -/
theorem linkTo_cases {held : Held Chain} {filter' : Restriction}
    (done : (linkTo .and condition values (.chain held)).Yields filter') :
    condition.isVacant values = true ∧ filter' = .chain held ∨
    condition.isVacant values = false ∧ ∃ predicate, (condition.toPredicate values).Yields predicate ∧
      filter' = .chain { held with item := held.item.append .and predicate } := by
  have word : Connective.ofValue (.text (Keyword.word Connective.and)) = .ok .and := by decide +kernel
  obtain ⟨chain, linked, same⟩ := Yields.bind done
  obtain rfl := yields_pure.mp same
  unfold Chain.link at linked
  split at linked
  · next vacant =>
    obtain rfl := yields_pure.mp linked
    exact .inl ⟨vacant, rfl⟩
  · next asks =>
    obtain ⟨connective, read, further⟩ := linked.bind
    obtain ⟨predicate, made, same⟩ := further.bind
    obtain rfl := yields_pure.mp same
    obtain rfl : Connective.and = connective := Except.ok.inj (word.symm.trans (yields_lift.mp read))
    exact .inr ⟨by simpa using asks, predicate, made, rfl⟩

private theorem silent_of_vacant (vacant : condition.isVacant values = true) : condition.lexemes? values = none := by
  cases condition with
  | chain c =>
    have empty : c.isEmpty = true := (Bool.and_eq_true _ _ ▸ vacant).1
    simp [Condition.lexemes?, empty]
  | _ => cases vacant

private theorem clausal_first {held : Held Chain} (empty : held.item.links = []) {predicate : Predicate}
    (readable : predicate.Readable) :
    Clausal (some (Lexeme.group predicate.lexemes)) (.chain { held with item := held.item.append .and predicate }) := by
  have alone : (held.item.append .and predicate).lexemes = Lexeme.group predicate.lexemes := by
    simp [Chain.append, empty, Chain.lexemes, Lexeme.linked, Lexeme.linkedTo]
  rw [← alone]
  refine @Clausal.some { held with item := held.item.append .and predicate } (by simp [Chain.append]) ?_
  intro link member
  obtain rfl : link = (.and, predicate) := by simpa [Chain.append, empty] using member
  exact readable

private theorem clausal_further {held : Held Chain} (nonempty : held.item.links ≠ []) (all : held.item.Readable)
    {predicate : Predicate} (readable : predicate.Readable) :
    Clausal (some (Lexeme.joined .and held.item.lexemes (Lexeme.group predicate.lexemes)))
      (.chain { held with item := held.item.append .and predicate }) := by
  rw [← Chain.lexemes_append nonempty]
  refine @Clausal.some { held with item := held.item.append .and predicate } (by simp [Chain.append]) ?_
  intro link member
  rcases List.mem_append.mp member with front | last
  · exact all link front
  · obtain rfl := List.mem_singleton.mp last
    exact readable

private theorem clausal_adopted {chain : Chain} (readable : chain.Readable) :
    Clausal (narrowed none [] (.chain chain)) (.chain ⟨chain, none⟩) := by
  by_cases empty : chain.links = []
  · have nothing : narrowed none [] (.chain chain) = none := by
      simp [narrowed, Condition.lexemes?, Chain.isEmpty, empty]
    rw [nothing]
    exact .none empty
  · have whole : narrowed none [] (.chain chain) = some chain.lexemes := by
      simp [narrowed, Condition.lexemes?, Chain.isEmpty, empty, Condition.opening]
    rw [whole]
    exact @Clausal.some ⟨chain, none⟩ empty readable

/-- What one more condition does to the conditions of a clause. -/
theorem clausal_restrict {clause : Option (List Lexeme)} {filter filter' : Restriction} (clausal : Clausal clause filter)
    (readable : condition.Readable values) (done : (restrict .and condition values filter).Yields filter') :
    Clausal (narrowed clause values condition) filter' := by
  rcases restrict_cases done with ⟨chain, rfl, rfl, vacant, rfl⟩ | ⟨unadopted, linked⟩
  · cases clausal with
    | some nonempty _ => exact absurd vacant (by simpa [Restriction.isVacant, Chain.isEmpty] using nonempty)
    | none _ => exact clausal_adopted readable
  · obtain ⟨held, rfl⟩ : ∃ held, filter = .chain held := by
      cases clausal <;> exact ⟨_, rfl⟩
    rcases linkTo_cases linked with ⟨vacant, rfl⟩ | ⟨asks, predicate, made, rfl⟩
    · simp only [narrowed, silent_of_vacant vacant]
      exact clausal
    · obtain ⟨legible, lexemes⟩ := condition.lexemes_toPredicate readable asks made
      simp only [narrowed, lexemes]
      cases clausal with
      | some nonempty all => exact clausal_further nonempty all legible
      | none empty =>
        have grouped : condition.opening values = Lexeme.group predicate.lexemes := by
          cases condition with
          | chain c =>
            have given := Condition.values_of_chain made
            have taken := unadopted c rfl given
            simp [Restriction.isVacant, Chain.isEmpty, empty] at taken
          | _ => simp [Condition.opening, lexemes]
        simp only [grouped]
        exact clausal_first empty legible

/-- What a clause reads as after several conditions. -/
def narrowedBy (clause : Option (List Lexeme)) (conditions : List (Condition × List Value)) : Option (List Lexeme) :=
  conditions.foldl (fun clause condition => narrowed clause condition.2 condition.1) clause

private theorem narrowedBy_append (clause : Option (List Lexeme)) (front back : List (Condition × List Value)) :
    narrowedBy clause (front ++ back) = narrowedBy (narrowedBy clause front) back :=
  List.foldl_append

private theorem narrowedBy_cons (clause : Option (List Lexeme)) (condition : Condition × List Value)
    (rest : List (Condition × List Value)) :
    narrowedBy clause (condition :: rest) = narrowedBy (narrowed clause condition.2 condition.1) rest := rfl

private theorem narrowedBy_quiet {clause : Option (List Lexeme)} {conditions : List (Condition × List Value)}
    (quiet : ∀ condition ∈ conditions, condition.1.lexemes? condition.2 = none) : narrowedBy clause conditions = clause := by
  induction conditions with
  | nil => rfl
  | cons condition rest ih =>
    have silent := quiet condition (by simp)
    have same : narrowed clause condition.2 condition.1 = clause := by simp only [narrowed, silent]
    rw [narrowedBy_cons, same]
    exact ih fun other member => quiet other (List.mem_cons_of_mem _ member)

private theorem narrowedBy_some (front : List Lexeme) (conditions : List (Condition × List Value)) :
    narrowedBy (some front) conditions =
      some (Lexeme.linkedTo front ((conditions.filterMap fun condition => condition.1.lexemes? condition.2).map (.and, ·))) := by
  induction conditions generalizing front with
  | nil => rfl
  | cons condition rest ih =>
    rw [narrowedBy_cons]
    cases asks : condition.1.lexemes? condition.2 with
    | none =>
      have same : narrowed (some front) condition.2 condition.1 = some front := by simp only [narrowed, asks]
      rw [same, ih, List.filterMap_cons, asks]
    | some lexemes =>
      have joined : narrowed (some front) condition.2 condition.1 =
          some (Lexeme.joined .and front (Lexeme.group lexemes)) := by simp only [narrowed, asks]
      rw [joined, ih, List.filterMap_cons, asks]
      rfl

private theorem changeFilter_yields {statement after : Statement Query} {change : Restriction → Build Restriction}
    (done : (statement.changeFilter change).Yields after) :
    ∃ filter filter', statement.filter? = some filter ∧ after.filter? = some filter' ∧ (change filter).Yields filter' := by
  cases statement with
  | select s | compound s | update s | delete s =>
    obtain ⟨filter', changed, same⟩ := Yields.bind done
    obtain rfl := yields_pure.mp same
    exact ⟨_, filter', rfl, rfl, changed⟩
  | built _ | insert _ | unbuildable => exact absurd done not_yields_throw

/-- The changes that a row of conditions makes. -/
def wheres (conditions : List (Condition × List Value)) : List Edit :=
  conditions.map fun condition => .where .and condition.1 condition.2

/-- What a row of conditions does to the conditions of a statement. -/
theorem clausal_wheres {statement after : Statement Query} {filter : Restriction} (given : statement.filter? = some filter)
    {clause : Option (List Lexeme)} (clausal : Clausal clause filter) {conditions : List (Condition × List Value)}
    (readable : ∀ condition ∈ conditions, condition.1.Readable condition.2)
    (done : ((wheres conditions).foldlM Edit.apply statement).Yields after) :
    ∃ filter', after.filter? = some filter' ∧ Clausal (narrowedBy clause conditions) filter' := by
  induction conditions generalizing statement filter clause with
  | nil =>
    rw [wheres, List.map_nil, List.foldlM_nil, yields_pure] at done
    rw [← done]
    exact ⟨filter, given, clausal⟩
  | cons condition rest ih =>
    rw [wheres, List.map_cons, List.foldlM_cons] at done
    obtain ⟨between, first, further⟩ := done.bind
    obtain ⟨found, filter', same, there, restricted⟩ := changeFilter_yields first
    obtain rfl : found = filter := Option.some.inj (same.symm.trans given)
    exact ih there (clausal_restrict clausal (readable condition (by simp)) restricted)
      (fun other member => readable other (List.mem_cons_of_mem _ member)) further

private theorem holds_render {clause : List Lexeme} {filter : Restriction} (clausal : Clausal (some clause) filter)
    {start : Nat} {numbered : Numbered} (rendered : (filter.render start).Yields numbered) :
    numbered.lexemes start = clause := by
  cases clausal with
  | some nonempty readable => exact Chain.lexemes_render readable nonempty rendered

private theorem all_holds (conditions : List (Condition × List Value)) :
    (conditions.filterMap fun condition => condition.1.lexemes? condition.2).all (Lexeme.holds truth) =
      conditions.all fun condition => condition.1.holds truth condition.2 := by
  induction conditions with
  | nil => rfl
  | cons condition rest ih =>
    rw [List.filterMap_cons, List.all_cons, ← ih, Condition.holds]
    cases condition.1.lexemes? condition.2 <;> rfl

/-- What conditions mean that are asked for one after another, from no conditions at all. If the first that asks for anything is a chain, the others narrow only its last alternative; as long as it has no other, all conditions must hold. -/
theorem holds_wheres {statement after : Statement Query} {held : Held Chain} (given : statement.filter? = some (.chain held))
    (empty : held.item.links = []) {quiet rest : List (Condition × List Value)} {first : Condition × List Value}
    (readable : ∀ condition ∈ quiet ++ first :: rest, condition.1.Readable condition.2)
    (vacant : ∀ condition ∈ quiet, condition.1.lexemes? condition.2 = none) (asks : (first.1.lexemes? first.2).isSome)
    (done : ((wheres (quiet ++ first :: rest)).foldlM Edit.apply statement).Yields after) :
    ∃ filter, after.filter? = some filter ∧ ∀ (start : Nat) (numbered : Numbered), (filter.render start).Yields numbered →
      Lexeme.holds truth (numbered.lexemes start) =
        (Lexeme.earlierHolds truth (first.1.opening first.2) ||
          Lexeme.lastHolds truth (first.1.opening first.2) && rest.all fun condition => condition.1.holds truth condition.2) ∧
      (Lexeme.Unmixed (first.1.opening first.2) → Lexeme.holds truth (numbered.lexemes start) =
        (quiet ++ first :: rest).all fun condition => condition.1.holds truth condition.2) := by
  obtain ⟨filter, reached, clausal⟩ := clausal_wheres given (.none empty) readable done
  refine ⟨filter, reached, fun start numbered rendered => ?_⟩
  obtain ⟨lexemes, same⟩ := Option.isSome_iff_exists.mp asks
  have evenly : ∀ lexemes ∈ rest.filterMap fun condition => condition.1.lexemes? condition.2, Lexeme.Even lexemes := by
    intro lexemes member
    obtain ⟨condition, inside, asks⟩ := List.mem_filterMap.mp member
    exact Condition.even_of_lexemes? (readable condition (by simp [inside])) asks
  have opened : narrowed none first.2 first.1 = some (first.1.opening first.2) := by simp only [narrowed, same]
  rw [narrowedBy_append, narrowedBy_quiet vacant, narrowedBy_cons, opened, narrowedBy_some] at clausal
  have exactly : Lexeme.holds truth (numbered.lexemes start) =
      (Lexeme.earlierHolds truth (first.1.opening first.2) ||
        Lexeme.lastHolds truth (first.1.opening first.2) && rest.all fun condition => condition.1.holds truth condition.2) := by
    rw [holds_render clausal rendered,
      Lexeme.holds_linkedTo_and truth (Condition.even_opening (readable first (by simp)) asks) evenly, all_holds]
  refine ⟨exactly, fun unmixed => ?_⟩
  have silent : (quiet.all fun condition => condition.1.holds truth condition.2) = true := by
    rw [List.all_eq_true]
    intro condition member
    rw [Condition.holds, vacant condition member]
    rfl
  rw [exactly, unmixed.earlierHolds_eq, unmixed.lastHolds_eq, Bool.false_or, List.all_append, silent, Bool.true_and,
    List.all_cons, Condition.holds_opening (readable first (by simp)) asks]

private def narrowing : List (Condition × List Value) :=
  [(.chain eitherOr, []), (.text (.plain "a = ?"), [.int 1])]

/-- A statement with no conditions yet. -/
private def unrestricted : Statement Query :=
  .select { table := .text "t" }

private theorem readable_narrowing : ∀ condition ∈ narrowing, condition.1.Readable condition.2 := by
  have condition : Legible "a = ?" [.int 1] := .of_clean (by decide) (by decide) (by decide +kernel)
  have first : (compareWith "b = ?" 2).Readable := ⟨rfl, .of_clean (by decide) (by decide) (by decide +kernel)⟩
  have second : (compareWith "c = ?" 3).Readable := ⟨rfl, .of_clean (by decide) (by decide) (by decide +kernel)⟩
  have chain : eitherOr.Readable := by simpa [Chain.Readable, eitherOr] using ⟨first, second⟩
  simpa [narrowing, Condition.Readable] using ⟨chain, condition⟩

/-- A chain of two alternatives and one more condition, of which the first alternative alone holds. -/
theorem holds_wheres_narrowing : ∃ after filter, ((wheres narrowing).foldlM Edit.apply unrestricted).Yields after ∧
    after.filter? = some filter ∧ ∀ (start : Nat) (numbered : Numbered), (filter.render start).Yields numbered →
      Lexeme.holds (onlyFactor 'b') (numbered.lexemes start) = true := by
  have done : ((wheres narrowing).foldlM Edit.apply unrestricted).Yields _ := ⟨{}, _, rfl⟩
  obtain ⟨filter, reached, clause⟩ := @holds_wheres (onlyFactor 'b') unrestricted _ ⟨{}, none⟩ rfl rfl [] _ _ readable_narrowing
    (by simp) (by decide +kernel) done
  refine ⟨_, filter, done, reached, fun start numbered rendered => ?_⟩
  rw [(clause start numbered rendered).1]
  decide +kernel

/-- The clause holds although one of the conditions that were asked for does not. -/
theorem wheres_beyond_conjunction : ∃ after filter numbered,
    ((wheres narrowing).foldlM Edit.apply unrestricted).Yields after ∧ after.filter? = some filter ∧
    (filter.render 1).Yields numbered ∧ Lexeme.holds (onlyFactor 'b') (numbered.lexemes 1) = true ∧
    (narrowing.all fun condition => condition.1.holds (onlyFactor 'b') condition.2) = false := by
  refine ⟨_, _, _, ⟨{}, _, rfl⟩, rfl, Chain.yields_render ⟨{}, _, rfl⟩ (List.cons_ne_nil _ _) (by decide) ?_, ?_, ?_⟩ <;> decide +kernel

end Statement

end SqlCompose
