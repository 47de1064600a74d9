import Mathlib
import SqlCompose.Proofs.AcceptedLinks
import SqlCompose.Proofs.Quotations

/-!
# Conditions rendered in parts

A chain is numbered by going once through the text of all its links together. The same comes out when every link is numbered on its own, from the index at which the one before it stopped, and the numbered texts are put in parentheses and joined. It does so because a link whose quotes are closed is read between its parentheses as it is read alone. Two predicates that are joined by a connective are numbered in parts in the same way.

The text of a link is the text that is set into the chain: for a plain text the text itself, for an entry of a list of words the name under which it is printed.
-/

namespace SqlCompose

open Build Token

/-! ### Numbering tokens one stretch after another -/

theorem Token.bind_plain (start : Int) (run : Text) (rest : List Token) :
    Token.bind start (run.map .plain ++ rest) = run ++ Token.bind start rest := by
  induction run with
  | nil => rfl
  | cons c run ih =>
    rw [List.map_cons, List.cons_append, Token.bind, ih]
    · rfl
    · intros; contradiction

theorem Token.bind_append (start : Int) (left right : List Token) :
    Token.bind start (left ++ right) = Token.bind start left ++ Token.bind (start + left.countP isMarker) right := by
  induction left generalizing start with
  | nil => simp [Token.bind]
  | cons token left ih =>
    cases token with
    | marker =>
      have next : start + 1 + left.countP isMarker = start + (marker :: left).countP isMarker := by
        rw [List.countP_cons_of_pos rfl]
        omega
      rw [List.cons_append, Token.bind, Token.bind, ih, next, List.append_assoc]
    | quoted _ | placeholder _ | schema _ | plain _ =>
      rw [List.cons_append, Token.bind, Token.bind, ih, List.countP_cons_of_neg (by simp [isMarker]), List.append_assoc]
      all_goals (intros; contradiction)

/-- From every trace the computation gives a rendered text with copies of some values and the index behind them. -/
def Build.RendersAs (action : Build Value) (text : Text) (values : List Value) (next : Int) : Prop :=
  ∀ trace, ∃ label held copies after,
    runFrom trace action = (.ok (.record label .rendered [.text text, .list held copies, .int next]), after) ∧
      copies.map Value.content = values.map Value.content

/-! ### Predicates that can be parts -/

/-- A predicate that was made and whose text, as it is set into another, has all its quotes closed and a marker for each value. -/
structure Predicate.Joinable (predicate : Predicate) : Prop where
  made : predicate.Made
  balanced : Slotted.Balanced predicate.text.printed
  counted : countMarkers predicate.text.printed = predicate.values.length

namespace Predicate

/-- A predicate that was made over a plain text can be a part as soon as its quotes are closed. -/
theorem Joinable.of_plain {text : Text} {values : List Value} (made : (Predicate.mk (.plain text) values).Made)
    (balanced : Slotted.Balanced text) : (Predicate.mk (.plain text) values).Joinable :=
  ⟨made, balanced, made.counted⟩

theorem Joinable.bindMarkers {predicate : Predicate} (joinable : predicate.Joinable) {start : Int} (low : 0 ≤ start)
    (high : start + predicate.values.length ≤ 10 ^ Numeral.digitLimit) :
    SqlCompose.bindMarkers predicate.text.printed start =
      .ok ((boundMarkers predicate.text.printed start).1, start + predicate.values.length) := by
  rw [bindMarkers_of_bound low (by rwa [joinable.counted]), boundMarkers, joinable.counted]

/-- The predicate over the text that is set into others. -/
def asSet (predicate : Predicate) : Predicate :=
  ⟨.plain predicate.text.printed, predicate.values⟩

/-- Values that one text was accepted with are accepted with every text that has as many markers. -/
private theorem Made.asSet {predicate : Predicate} (made : predicate.Made)
    (counted : countMarkers predicate.text.printed = predicate.values.length) : predicate.asSet.Made := by
  obtain ⟨text, values, trace, after, done⟩ := made
  rw [Predicate.make, runFrom_bind] at done
  cases checked : runFrom trace (Value.checkAll values) with
  | mk outcome between =>
    rw [checked] at done
    cases outcome with
    | error error => cases done
    | ok copies =>
      change runFrom between (if _ then pure _ else throw _) = _ at done
      split at done
      · obtain ⟨same, -⟩ := Prod.mk.inj done
        obtain rfl := Except.ok.inj same
        refine ⟨.plain text.printed, values, trace, between, ?_⟩
        rw [Predicate.make, runFrom_bind, checked]
        change runFrom between (if _ then pure _ else throw _) = _
        rw [Wording.content_plain, if_pos counted]
        rfl
      · cases done

/-- The predicate numbered from a start, in parentheses or between other text. -/
theorem bind_linkTokens (start : Int) (front : Text) (predicate : Predicate) (rest : List Token) :
    Token.bind start (Chain.linkTokens front predicate ++ rest) =
      front ++ (boundMarkers predicate.text.content start).1 ++ ")" ++
        Token.bind (boundMarkers predicate.text.content start).2 rest := by
  have closing : Token.bind (start + (read predicate.text.content).countP isMarker) ([.plain ')'] ++ rest) =
      ")" ++ Token.bind (start + (read predicate.text.content).countP isMarker) rest :=
    Token.bind_plain _ ")" rest
  rw [Chain.linkTokens, List.append_assoc, List.append_assoc, Token.bind_plain, Token.bind_append, closing]
  simp only [boundMarkers, countMarkers, List.append_assoc]

end Predicate

/-! ### Chains -/

namespace Chain

/-- The texts of links behind the first, each numbered from the index at which the one before it stopped, and the index at which the last stops. -/
def laterParts (start : Int) : List (Connective × Predicate) → Except Error (List Text × Int)
  | [] => .ok ([], start)
  | link :: rest => do
    let (text, next) ← bindMarkers link.2.text.printed start
    let (texts, last) ← laterParts next rest
    return ((Keyword.word link.1 ++ " (" ++ text ++ ")") :: texts, last)

/-- The texts of all links, each numbered on its own. -/
def parts (chain : Chain) (start : Int) : Except Error (List Text × Int) :=
  match chain.links with
  | [] => .ok ([], start)
  | first :: rest => do
    let (text, next) ← bindMarkers first.2.text.printed start
    let (texts, last) ← laterParts next rest
    return (("(" ++ text ++ ")") :: texts, last)

/-- The chain over the texts that are set into it. -/
private def asSet (chain : Chain) : Chain :=
  ⟨chain.links.map fun link => (link.1, link.2.asSet)⟩

variable {chain : Chain}

private theorem text_asSet (chain : Chain) (newLine : Bool) : chain.asSet.text newLine = chain.text newLine := by
  obtain ⟨links⟩ := chain
  cases links with
  | nil => rfl
  | cons first rest =>
    have later : (rest.map fun link => (link.1, link.2.asSet)).map laterLink = rest.map laterLink := by
      rw [List.map_map]
      rfl
    simp only [text, asSet, linkTexts, List.map_cons, later]
    rfl

private theorem values_asSet (chain : Chain) : chain.asSet.values = chain.values := by
  rw [values, asSet, List.flatMap_map]
  rfl

private theorem renderFrom_asSet (chain : Chain) (start : Value) (newLine : Bool) :
    chain.asSet.renderFrom start newLine = chain.renderFrom start newLine := by
  have empty : chain.asSet.isEmpty = chain.isEmpty := List.isEmpty_map
  rw [renderFrom, renderFrom, toPredicate, toPredicate, text_asSet, values_asSet, empty]

/-- The tokens of links behind the first give the parts of these links. -/
private theorem join_later (newLine : Bool) {links : List (Connective × Predicate)} {start : Int} {parts : List Text × Int}
    (numbered : laterParts start links = .ok parts) (front : Text) :
    Text.join (separator newLine) (front :: parts.1) =
      front ++ Token.bind start
        ((links.map fun link => (link.1, link.2.asSet)).flatMap fun link => linkTokens (opening newLine link.1) link.2) := by
  induction links generalizing front start parts with
  | nil =>
    obtain rfl := Except.ok.inj numbered
    simp [Text.join, Token.bind]
  | cons link links ih =>
    obtain ⟨bound, first, numbered⟩ := Outcome.bind_eq_ok.mp numbered
    obtain ⟨-, rfl⟩ := bindMarkers_eq_ok.mp first
    obtain ⟨later, there, same⟩ := Outcome.bind_eq_ok.mp numbered
    obtain rfl := Except.ok.inj same
    rw [List.map_cons, List.flatMap_cons, Predicate.bind_linkTokens, Text.join, List.intercalate_cons_cons, ← Text.join, ih there,
      opening]
    simp only [boundMarkers, Predicate.asSet, Wording.content_plain, List.append_assoc]

/-- Numbered together, the links give what they give one by one. -/
private theorem bind_tokens (newLine : Bool) {start : Int} {parts : List Text × Int} (numbered : chain.parts start = .ok parts) :
    Token.bind start (chain.asSet.tokens newLine) = Text.join (separator newLine) parts.1 := by
  obtain ⟨links⟩ := chain
  cases links with
  | nil =>
    obtain rfl := Except.ok.inj numbered
    rfl
  | cons link rest =>
    obtain ⟨bound, first, numbered⟩ := Outcome.bind_eq_ok.mp numbered
    obtain ⟨-, rfl⟩ := bindMarkers_eq_ok.mp first
    obtain ⟨later, there, same⟩ := Outcome.bind_eq_ok.mp numbered
    obtain rfl := Except.ok.inj same
    rw [tokens, asSet, List.map_cons, Predicate.bind_linkTokens, join_later newLine there]
    simp only [boundMarkers, Predicate.asSet, Wording.content_plain, List.append_assoc]

private theorem exists_laterParts {links : List (Connective × Predicate)} (joinable : ∀ link ∈ links, link.2.Joinable) {start : Int}
    (low : 0 ≤ start) (high : start + (links.flatMap (·.2.values)).length ≤ 10 ^ Numeral.digitLimit) :
    ∃ texts, laterParts start links = .ok (texts, start + (links.flatMap (·.2.values)).length) := by
  induction links generalizing start with
  | nil => exact ⟨[], by simp [laterParts]⟩
  | cons link links ih =>
    obtain ⟨here, there⟩ := List.forall_mem_cons.mp joinable
    rw [List.flatMap_cons, List.length_append, Nat.cast_add, ← Int.add_assoc] at high ⊢
    obtain ⟨texts, later⟩ := ih there (by omega) high
    exact ⟨_, Outcome.bind_eq_ok.mpr ⟨_, here.bindMarkers low (by omega), Outcome.bind_eq_ok.mpr ⟨_, later, rfl⟩⟩⟩

/-- The links have parts if there is room for the numbers of all their values. -/
private theorem exists_parts (joinable : ∀ link ∈ chain.links, link.2.Joinable) {start : Int} (low : 0 ≤ start)
    (high : start + chain.values.length ≤ 10 ^ Numeral.digitLimit) :
    ∃ texts, chain.parts start = .ok (texts, start + chain.values.length) := by
  obtain ⟨links⟩ := chain
  cases links with
  | nil => exact ⟨[], by simp [parts, values]⟩
  | cons link rest =>
    obtain ⟨here, there⟩ := List.forall_mem_cons.mp joinable
    rw [values, List.flatMap_cons, List.length_append, Nat.cast_add, ← Int.add_assoc] at high ⊢
    obtain ⟨texts, later⟩ := exists_laterParts there (by omega) high
    exact ⟨_, Outcome.bind_eq_ok.mpr ⟨_, here.bindMarkers low (by omega), Outcome.bind_eq_ok.mpr ⟨_, later, rfl⟩⟩⟩

private theorem separate_asSet (joinable : ∀ link ∈ chain.links, link.2.Joinable) : chain.asSet.Separate := by
  refine ⟨fun link member => ?_, List.pairwise_map.mpr ?_⟩
  · obtain ⟨given, -, rfl⟩ := List.mem_map.mp member
    rfl
  · refine List.Pairwise.imp_of_mem (fun {earlier later} member _ _ => ?_) (List.pairwise_of_forall fun _ _ => trivial)
    exact Quoted.Shut.unclosed (joinable earlier member).balanced _

private theorem made_asSet (joinable : ∀ link ∈ chain.links, link.2.Joinable) : ∀ link ∈ chain.asSet.links, link.2.Made := by
  intro link member
  obtain ⟨given, inside, rfl⟩ := List.mem_map.mp member
  exact (joinable given inside).made.asSet (joinable given inside).counted

private theorem countMarkers_asSet (joinable : ∀ link ∈ chain.links, link.2.Joinable) (newLine : Bool) :
    countMarkers (chain.text newLine) = chain.values.length := by
  rw [← text_asSet, ← values_asSet, countMarkers, (separate_asSet joinable).read_text newLine,
    countP_tokens newLine (made_asSet joinable)]

/-- Numbered as a whole, the text of the chain is the parts. -/
private theorem boundMarkers_text (joinable : ∀ link ∈ chain.links, link.2.Joinable) (newLine : Bool) {start : Int} {texts : List Text}
    {last : Int} (numbered : chain.parts start = .ok (texts, last)) :
    boundMarkers (chain.text newLine) start = (Text.join (separator newLine) texts, start + chain.values.length) := by
  rw [boundMarkers, countMarkers_asSet joinable, ← text_asSet, (separate_asSet joinable).read_text newLine, bind_tokens newLine numbered]

private theorem balanced_text (joinable : ∀ link ∈ chain.links, link.2.Joinable) (newLine : Bool) :
    Slotted.Balanced (chain.text newLine) := by
  have set : ∀ link ∈ chain.links, Slotted.Balanced ("(" ++ (link.2.text.printed ++ ")")) := fun link member =>
    ((Carries.of_balanced (joinable link member).balanced).behind ")" rfl rfl |>.literal "(" rfl).balanced
  have spacing : separator newLine ≠ [] ∧ ∀ c ∈ separator newLine, Quoted.isQuote c = false := by
    cases newLine <;> decide
  refine Quoted.balanced_join spacing.1 spacing.2 fun text member => ?_
  obtain ⟨links⟩ := chain
  cases links with
  | nil => cases member
  | cons first rest =>
    rcases List.mem_cons.mp member with rfl | further
    · rw [List.append_assoc]
      exact set first (List.mem_cons_self ..)
    · obtain ⟨link, inside, rfl⟩ := List.mem_map.mp further
      have shape : laterLink link = (Keyword.word link.1 ++ " ") ++ ("(" ++ (link.2.text.printed ++ ")")) := by
        simp [laterLink]
      have ordinary : (Keyword.word link.1 ++ " " : Text).all isPlain = true := by cases link.1 <;> decide
      rw [shape]
      exact ((Carries.of_balanced (set link (List.mem_cons_of_mem _ inside))).literal _ ordinary).balanced

/-- A chain whose links can be parts collapses into a predicate that can be one. -/
private theorem runFrom_toPredicate_of_joinable (joinable : ∀ link ∈ chain.links, link.2.Joinable) (newLine : Bool) (trace : Trace) :
    ∃ copies after, runFrom trace (chain.toPredicate newLine) = (.ok ⟨.plain (chain.text newLine), copies⟩, after) ∧
      (Predicate.mk (.plain (chain.text newLine)) copies).Joinable ∧ copies.map Value.content = chain.values.map Value.content := by
  have same : chain.toPredicate newLine = chain.asSet.toPredicate newLine := by
    rw [toPredicate, toPredicate, text_asSet, values_asSet]
  have counted : countMarkers (chain.asSet.text newLine) = chain.asSet.values.length := by
    rw [text_asSet, values_asSet, countMarkers_asSet joinable]
  obtain ⟨copies, after, done, content⟩ := (runFrom_toPredicate (made_asSet joinable) newLine trace).1 counted
  rw [text_asSet, ← same] at done
  rw [values_asSet] at content
  exact ⟨copies, after, done, .of_plain ⟨_, _, trace, after, done⟩ (balanced_text joinable newLine), content⟩

/-- The chain is rendered, and what comes is the parts. -/
private theorem renders_renderFrom (joinable : ∀ link ∈ chain.links, link.2.Joinable) {start : Int} (low : 0 ≤ start)
    (high : start + chain.values.length ≤ 10 ^ Numeral.digitLimit) {texts : List Text}
    (numbered : chain.parts start = .ok (texts, start + chain.values.length)) (newLine : Bool) :
    (chain.renderFrom (.int start) newLine).RendersAs (Text.join (separator newLine) texts) chain.values
      (start + chain.values.length) := by
  intro trace
  have counted : countMarkers (chain.asSet.text newLine) = chain.asSet.values.length := by
    rw [text_asSet, values_asSet, countMarkers_asSet joinable]
  have written : ∀ n ∈ numbersFrom start chain.asSet.values.length, Numeral.Writable n := by
    rw [values_asSet]
    exact Numeral.check_eq_ok.mp (check_numbersFrom low high)
  obtain ⟨label, held, values, after, done, content⟩ := ((numberedAs (made_asSet joinable) counted start).1 written trace).1
  rw [renderFrom_asSet, values_asSet, (separate_asSet joinable).read_text newLine, bind_tokens newLine numbered] at done
  rw [values_asSet] at content
  exact ⟨label, held, values, after, done, content⟩

end Chain

/-! ### Two predicates -/

namespace Predicate

variable {left right : Predicate} {connective : Connective}

/-- The text of two predicates joined by a connective. -/
private def bothText (connective : Connective) (left right : Predicate) : Text :=
  "(" ++ left.text.printed ++ " " ++ Keyword.word connective ++ " " ++ right.text.printed ++ ")"

private theorem spaced_plain (connective : Connective) : (" " ++ (Keyword.word connective ++ " ") : Text).all isPlain = true := by
  cases connective <;> decide

private theorem read_bothText (first : Slotted.Balanced left.text.printed) (second : Slotted.Balanced right.text.printed)
    (connective : Connective) :
    read (bothText connective left right) = ("(" : Text).map .plain ++ (read left.text.printed ++
      ((" " ++ (Keyword.word connective ++ " ") : Text).map .plain ++ (read right.text.printed ++ (")" : Text).map .plain))) := by
  have shape : bothText connective left right =
      ("(" : Text) ++ (left.text.printed ++ ((" " ++ (Keyword.word connective ++ " ") : Text) ++ (right.text.printed ++ ((")" : Text) ++ [])))) := by
    simp only [bothText, List.append_assoc, List.append_nil]
  have spaced : SetOff ((" " ++ (Keyword.word connective ++ " ") : Text) ++ (right.text.printed ++ ((")" : Text) ++ []))) :=
    ⟨.of_head rfl _, .of_head rfl _, .of_head rfl _⟩
  have closing : SetOff ((")" : Text) ++ []) := ⟨.of_head rfl _, .of_head rfl _, .of_head rfl _⟩
  rw [shape, read_literal "(" (by decide), read_append first spaced, read_literal _ (spaced_plain connective),
    read_append second closing, read_literal ")" (by decide)]
  rfl

private theorem countMarkers_bothText (first : left.Joinable) (second : right.Joinable) (connective : Connective) :
    countMarkers (bothText connective left right) = (left.values ++ right.values).length := by
  rw [countMarkers, read_bothText first.balanced second.balanced connective, List.length_append, ← first.counted, ← second.counted]
  simp only [countMarkers, List.countP_append, Chain.countP_plain]
  omega

private theorem boundMarkers_bothText (first : left.Joinable) (second : right.Joinable) (connective : Connective) (start : Int) :
    boundMarkers (bothText connective left right) start =
      ("(" ++ (boundMarkers left.text.printed start).1 ++ " " ++ Keyword.word connective ++ " " ++
        (boundMarkers right.text.printed (start + left.values.length)).1 ++ ")", start + left.values.length + right.values.length) := by
  have tokens := read_bothText first.balanced second.balanced connective
  have ending : ∀ index, Token.bind index ((")" : Text).map .plain) = ")" := fun index => by
    have whole := Token.bind_plain index ")" []
    rwa [List.append_nil] at whole
  have middle : (read left.text.printed).countP isMarker = left.values.length := first.counted
  rw [boundMarkers, countMarkers_bothText first second, tokens, Token.bind_plain, Token.bind_append, Token.bind_plain, Token.bind_append,
    ending, middle, List.length_append, Nat.cast_add, ← Int.add_assoc]
  simp only [boundMarkers, List.append_assoc]

private theorem runFrom_renderFrom {predicate : Predicate} {start : Int} {bound : Text × Int}
    (done : bindMarkers predicate.text.content start = .ok bound) (trace : Trace) :
    ∃ label held after, runFrom trace (predicate.renderFrom (.int start)) =
      (.ok (.record label .rendered [.text bound.1, .list held predicate.values, .int bound.2]), after) := by
  rw [renderFrom, bindFrom_int, done]
  exact ⟨_, _, _, rfl⟩

/-- The two are joined and rendered, and what comes is the two parts. -/
private theorem renders_combine (first : left.Joinable) (second : right.Joinable) (connective : Connective) {start : Int} (low : 0 ≤ start)
    (high : start + left.values.length + right.values.length ≤ 10 ^ Numeral.digitLimit) :
    (combine connective left right >>= fun both => both.renderFrom (.int start)).RendersAs
      ("(" ++ (boundMarkers left.text.printed start).1 ++ " " ++ Keyword.word connective ++ " " ++
        (boundMarkers right.text.printed (start + left.values.length)).1 ++ ")")
      (left.values ++ right.values) (start + left.values.length + right.values.length) := by
  intro trace
  have bindable : Value.faultItems? (left.values ++ right.values) = none := by
    rw [Value.faultItems?_append, first.made.bindable, second.made.bindable]
    rfl
  have counted := countMarkers_bothText first second connective
  obtain ⟨copies, between, content, done⟩ := runFrom_make bindable (.plain (bothText connective left right)) trace
  rw [Wording.content_plain, if_pos counted] at done
  have bound : bindMarkers (bothText connective left right) start = .ok (boundMarkers (bothText connective left right) start) := by
    refine bindMarkers_of_bound low ?_
    rwa [counted, List.length_append, Nat.cast_add, ← Int.add_assoc]
  obtain ⟨label, held, after, rendered⟩ :=
    @runFrom_renderFrom ⟨.plain (bothText connective left right), copies⟩ start _ bound between
  rw [boundMarkers_bothText first second] at rendered
  refine ⟨label, held, copies, after, ?_, content⟩
  rw [runFrom_bind, show runFrom trace (combine connective left right) = _ from done]
  exact rendered

end Predicate

/-- A chain behind a connective comes part by part as well. -/
private theorem renders_combine_chain {left : Predicate} {chain : Chain} (first : left.Joinable)
    (joinable : ∀ link ∈ chain.links, link.2.Joinable) (connective : Connective) {start : Int} (low : 0 ≤ start)
    (high : start + left.values.length + chain.values.length ≤ 10 ^ Numeral.digitLimit) {texts : List Text}
    (numbered : chain.parts (start + left.values.length) = .ok (texts, start + left.values.length + chain.values.length)) :
    (do
      let both ← Predicate.combine connective left (← (Condition.chain chain).toPredicate [])
      both.renderFrom (.int start)).RendersAs
      ("(" ++ (boundMarkers left.text.printed start).1 ++ " " ++ Keyword.word connective ++ " " ++ Text.join "\n " texts ++ ")")
      (left.values ++ chain.values) (start + left.values.length + chain.values.length) := by
  intro trace
  obtain ⟨copies, between, done, second, content⟩ := chain.runFrom_toPredicate_of_joinable joinable true trace
  have length : copies.length = chain.values.length := by simpa using congrArg List.length content
  rw [← length] at high
  obtain ⟨label, held, values, after, rendered, same⟩ := Predicate.renders_combine first second connective low high between
  rw [Wording.printed_plain, Chain.boundMarkers_text joinable true numbered, length] at rendered
  have collapsed : runFrom trace ((Condition.chain chain).toPredicate []) = (.ok ⟨.plain (chain.text true), copies⟩, between) := by
    change runFrom trace (chain.toPredicate true >>= fun p => pure p) = _
    rw [runFrom_bind, done]
    rfl
  refine ⟨label, held, values, after, ?_, ?_⟩
  · rw [runFrom_bind, collapsed]
    exact rendered
  · rw [same, List.map_append, List.map_append, content]

/-- A chain whose links can be parts, and such a predicate joined by a connective to another or to a chain, are rendered from every start with room for the numbers of all values: part by part, each numbered from the index at which the one before it stopped, with the values of all parts in order and the index behind the last of them. -/
theorem Chain.renders_in_parts :
    (∀ chain : Chain, chain.links ≠ [] → (∀ link ∈ chain.links, link.2.Joinable) → ∀ start : Int, 0 ≤ start →
      start + chain.values.length ≤ 10 ^ Numeral.digitLimit → ∃ texts,
        chain.parts start = .ok (texts, start + chain.values.length) ∧
        ∀ newLine : Bool, (chain.renderFrom (.int start) newLine).RendersAs (Text.join (separator newLine) texts) chain.values
          (start + chain.values.length)) ∧
    (∀ left : Predicate, left.Joinable → ∀ (connective : Connective) (start : Int), 0 ≤ start →
      (∀ right : Predicate, right.Joinable → start + left.values.length + right.values.length ≤ 10 ^ Numeral.digitLimit → ∃ front back,
        bindMarkers left.text.printed start = .ok (front, start + left.values.length) ∧
        bindMarkers right.text.printed (start + left.values.length) = .ok (back, start + left.values.length + right.values.length) ∧
        (Predicate.combine connective left right >>= fun both => both.renderFrom (.int start)).RendersAs
          ("(" ++ front ++ " " ++ Keyword.word connective ++ " " ++ back ++ ")") (left.values ++ right.values)
          (start + left.values.length + right.values.length)) ∧
      (∀ chain : Chain, chain.links ≠ [] → (∀ link ∈ chain.links, link.2.Joinable) →
        start + left.values.length + chain.values.length ≤ 10 ^ Numeral.digitLimit → ∃ front texts,
        bindMarkers left.text.printed start = .ok (front, start + left.values.length) ∧
        chain.parts (start + left.values.length) = .ok (texts, start + left.values.length + chain.values.length) ∧
        (do
          let both ← Predicate.combine connective left (← (Condition.chain chain).toPredicate [])
          both.renderFrom (.int start)).RendersAs
          ("(" ++ front ++ " " ++ Keyword.word connective ++ " " ++ Text.join "\n " texts ++ ")") (left.values ++ chain.values)
          (start + left.values.length + chain.values.length))) := by
  refine ⟨?chains, fun left first connective start low => ⟨?predicates, ?behind⟩⟩
  case chains =>
    intro chain _ joinable start low high
    obtain ⟨texts, numbered⟩ := exists_parts joinable low high
    exact ⟨texts, numbered, renders_renderFrom joinable low high numbered⟩
  case predicates =>
    intro right second high
    exact ⟨_, _, first.bindMarkers low (by omega), second.bindMarkers (by omega) high,
      Predicate.renders_combine first second connective low high⟩
  case behind =>
    intro chain _ joinable high
    obtain ⟨texts, numbered⟩ := exists_parts joinable (by omega) high
    exact ⟨_, texts, first.bindMarkers low (by omega), numbered, renders_combine_chain first joinable connective low high numbered⟩

private theorem made_of_counted {text : Text} {values : List Value} (counted : countMarkers text = values.length)
    (bindable : Value.faultItems? values = none) (whole : (Value.copyItems 0 values).1 = values) :
    (Predicate.mk (.plain text) values).Made := by
  have length := Value.length_copyItems 0 values
  refine ⟨.plain text, values, {}, { nextLabel := (Value.copyItems 0 values).2 }, ?_⟩
  rw [Predicate.make, Value.checkAll, bindable]
  change runFrom { nextLabel := (Value.copyItems 0 values).2 } (if _ then pure _ else throw _) = _
  rw [whole, Wording.content_plain, if_pos counted]
  rfl

private theorem joinable_of_counted {text : Text} {values : List Value} (balanced : Slotted.Balanced text)
    (counted : countMarkers text = values.length) (bindable : Value.faultItems? values = none)
    (whole : (Value.copyItems 0 values).1 = values) : (Predicate.mk (.plain text) values).Joinable :=
  .of_plain (made_of_counted counted bindable whole) balanced

private def eitherPart : Chain :=
  ⟨[(.or, ⟨.plain "a = ? OR b = '?'", [.int 1]⟩), (.or, ⟨.plain "c IN (?, ?)", [.int 2, .null]⟩)]⟩

private theorem joinable_eitherPart : ∀ link ∈ eitherPart.links, link.2.Joinable := by
  intro link member
  rcases List.mem_pair.mp member with rfl | rfl
  · exact joinable_of_counted (by decide +kernel) (by decide +kernel) rfl rfl
  · exact joinable_of_counted (by decide +kernel) (by decide +kernel) rfl rfl

private theorem parts_eitherPart : eitherPart.parts 4 = .ok (["(a = $4 OR b = '?')".toList, "OR (c IN ($5, $6))".toList], 7) ∧
    bindMarkers "a = ? OR b = '?'" 4 = .ok ("a = $4 OR b = '?'".toList, 5) ∧
      bindMarkers "c IN (?, ?)" 5 = .ok ("c IN ($5, $6)".toList, 7) := by
  decide +kernel

/-- A question mark in a literal takes no number, and the second link goes on where the first stops. -/
theorem Chain.renders_in_parts_quoted :
    eitherPart.links ≠ [] ∧ (∀ link ∈ eitherPart.links, link.2.Joinable) ∧ (4 : Int) + eitherPart.values.length ≤ 10 ^ Numeral.digitLimit ∧
    (eitherPart.renderFrom (.int 4) true).RendersAs "(a = $4 OR b = '?')\n OR (c IN ($5, $6))" eitherPart.values 7 ∧
    (Predicate.combine .and ⟨.plain "a = ? OR b = '?'", [.int 1]⟩ ⟨.plain "c IN (?, ?)", [.int 2, .null]⟩ >>=
      fun both => both.renderFrom (.int 4)).RendersAs "(a = $4 OR b = '?' AND c IN ($5, $6))" [.int 1, .int 2, .null] 7 := by
  have some : eitherPart.links ≠ [] := by simp [eitherPart]
  have room : (7 : Int) ≤ 10 ^ Numeral.digitLimit := by decide +kernel
  obtain ⟨parts, front, back⟩ := parts_eitherPart
  obtain ⟨texts, numbered, chain⟩ := renders_in_parts.1 eitherPart some joinable_eitherPart 4 (by decide) room
  obtain ⟨rfl, -⟩ := Prod.mk.inj (Except.ok.inj (parts.symm.trans numbered))
  have first := joinable_eitherPart _ (List.mem_cons_self ..)
  have second := joinable_eitherPart _ (List.mem_cons_of_mem _ (List.mem_cons_self ..))
  obtain ⟨left, right, opening, closing, both⟩ := (renders_in_parts.2 _ first .and 4 (by decide)).1 _ second room
  obtain ⟨rfl, -⟩ := Prod.mk.inj (Except.ok.inj (front.symm.trans opening))
  obtain ⟨rfl, -⟩ := Prod.mk.inj (Except.ok.inj (back.symm.trans closing))
  exact ⟨some, joinable_eitherPart, room, chain true, both⟩

/-- From a start that has too many digits the same chain is not rendered, and neither are its parts. -/
theorem Chain.renders_no_long_number : (∀ link ∈ eitherPart.links, link.2.Joinable) ∧
    eitherPart.parts (10 ^ 4300) = .error .numberTooLong ∧
    (∀ newLine, ∃ after, runFrom {} (eitherPart.renderFrom (.int (10 ^ 4300)) newLine) = (.error .numberTooLong, after)) := by
  refine ⟨joinable_eitherPart, by decide +kernel, fun newLine => ?_⟩
  have made : ∀ link ∈ eitherPart.links, link.2.Made := fun link member => (joinable_eitherPart link member).made
  have counted : countMarkers (eitherPart.text newLine) = eitherPart.values.length := by cases newLine <;> decide +kernel
  have long : ¬ Numeral.Writable (10 ^ 4300) := by decide +kernel
  have member : (10 ^ 4300 : Int) ∈ numbersFrom (10 ^ 4300) eitherPart.values.length :=
    List.mem_cons_self
  exact ((numberedAs made counted (10 ^ 4300)).2 ⟨_, member, long⟩ {}).1

end SqlCompose
