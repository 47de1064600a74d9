import Mathlib
import SqlCompose.Chain.Edit
import SqlCompose.Proofs.ConditionMeaning
import SqlCompose.Proofs.TwinConditions

/-!
# Links as they were accepted

A link is accepted if its text has a marker for each of its values. The chain is numbered later, and then its links are read once more, all in one text. Whether the same markers are found there depends on the quotes: one that a link leaves open is closed by the next of its kind in a later link, with all markers between them.

`Grown` is what the changes of a chain can come to. `Grown.renders` says when such a chain can be numbered, and that its links get the values they were accepted with if no link closes a quote of another.
-/

namespace SqlCompose

open Build Token

/-! ### Chains that have grown -/

/-- A predicate that was made from a text and values. -/
def Predicate.Made (predicate : Predicate) : Prop :=
  ∃ text values, (make text values).Yields predicate

namespace Predicate.Made

variable {predicate : Predicate}

theorem bindable (made : predicate.Made) : Value.faultItems? predicate.values = none := by
  obtain ⟨text, values, yields⟩ := made
  exact Predicate.sound_of_make yields

theorem counted (made : predicate.Made) : countMarkers predicate.text.content = predicate.values.length := by
  obtain ⟨text, values, yields⟩ := made
  obtain ⟨rfl, length, counted⟩ := Predicate.of_make yields
  rw [counted, length]

end Predicate.Made

/-- Making a predicate over values that can be bound gives copies of them, unless the markers of the text are more or fewer. -/
theorem Predicate.runFrom_make {values : List Value} (bindable : Value.faultItems? values = none) (text : Wording) (trace : Trace) :
    ∃ copies after, copies.map Value.content = values.map Value.content ∧ runFrom trace (make text values) =
      if countMarkers text.content = values.length then (.ok ⟨text, copies⟩, after)
      else (.error (.mismatch text.printed (countMarkers text.content) values.length), after) := by
  have checked : runFrom trace (Value.checkAll values) = runFrom trace (Value.copyAll values) := by
    rw [Value.checkAll, bindable]
  have length := Value.length_copyItems trace.nextLabel values
  refine ⟨(Value.copyItems trace.nextLabel values).1, { trace with nextLabel := (Value.copyItems trace.nextLabel values).2 },
    Value.content_copyItems _ _, ?_⟩
  rw [make, runFrom_bind, checked]
  change runFrom _ (if _ then pure _ else throw _) = _
  rw [length]
  split <;> rfl

/-- A predicate that is given as a condition was made. -/
def Condition.Genuine : Condition → Prop
  | .predicate given => given.Made
  | _ => True

theorem Condition.made_of_toPredicate {condition : Condition} (genuine : condition.Genuine) {values : List Value}
    {predicate : Predicate} (yields : (condition.toPredicate values).Yields predicate) : predicate.Made := by
  cases condition with
  | text text => exact ⟨text, values, yields⟩
  | predicate given =>
    rw [toPredicate] at yields
    split at yields
    · obtain rfl := yields_pure.mp yields
      exact genuine
    · exact absurd yields not_yields_throw
  | chain chain =>
    obtain ⟨collapsed, made, further⟩ := Yields.bind yields
    split at further
    · rw [← yields_pure.mp further]
      exact ⟨_, _, made⟩
    · exact absurd further not_yields_throw
  | query query =>
    obtain ⟨built, -, further⟩ := Yields.bind yields
    obtain ⟨fragment, -, further⟩ := Yields.bind further
    obtain ⟨text, -, made⟩ := Yields.bind further
    exact ⟨_, _, made⟩
  | unbuildable => exact absurd yields not_yields_throw
  | unusable =>
    obtain ⟨_, -, further⟩ := Yields.bind yields
    exact absurd further not_yields_throw

namespace Chain

def Edit.Genuine : Edit → Prop
  | .link _ condition _ | .existence _ _ condition _ => condition.Genuine
  | .clear => True

/-- A chain that changes have made from an empty one; each of them succeeded. -/
inductive Grown : Chain → Prop
  | empty : Grown {}
  | change {chain after : Chain} {edit : Edit} (before : Grown chain) (genuine : edit.Genuine)
      (done : (edit.apply chain).Yields after) : Grown after

variable {chain after : Chain}

private theorem made_of_link {condition : Condition} (genuine : condition.Genuine) {connective : Value} {values : List Value}
    (made : ∀ link ∈ chain.links, link.2.Made) (done : (chain.link connective condition values).Yields after) :
    ∀ link ∈ after.links, link.2.Made := by
  rw [Chain.link] at done
  split at done
  · rwa [← yields_pure.mp done]
  · obtain ⟨word, -, further⟩ := Yields.bind done
    obtain ⟨predicate, yields, ending⟩ := Yields.bind further
    rw [← yields_pure.mp ending]
    intro link member
    rcases List.mem_append.mp member with before | new
    · exact made link before
    · rw [List.mem_singleton.mp new]
      exact Condition.made_of_toPredicate genuine yields

theorem made_of_apply {edit : Edit} (genuine : edit.Genuine) (made : ∀ link ∈ chain.links, link.2.Made)
    (done : (edit.apply chain).Yields after) : ∀ link ∈ after.links, link.2.Made := by
  cases edit with
  | link connective condition values => exact made_of_link genuine made done
  | existence negated connective condition values =>
    obtain ⟨predicate, exists', further⟩ := Yields.bind done
    obtain ⟨inner, -, yields⟩ := Yields.bind exists'
    have genuine : (Condition.predicate predicate).Genuine := ⟨_, _, yields⟩
    exact made_of_link genuine made further
  | clear =>
    rw [← yields_pure.mp done]
    exact List.forall_mem_nil _

theorem Grown.made (grown : chain.Grown) : ∀ link ∈ chain.links, link.2.Made := by
  induction grown with
  | empty => exact List.forall_mem_nil _
  | change _ genuine done ih => exact made_of_apply genuine ih done

/-! ### Links side by side -/

def separator (newLine : Bool) : Text :=
  if newLine then "\n " else " "

/-- What stands in front of a link that is not the first. -/
def opening (newLine : Bool) (connective : Connective) : Text :=
  separator newLine ++ (Keyword.word connective ++ " (")

/-- A link as it was accepted: the tokens of its own text in parentheses. -/
def linkTokens (front : Text) (predicate : Predicate) : List Token :=
  front.map .plain ++ (read predicate.text.content ++ [.plain ')'])

/-- The tokens of all links, each read on its own. -/
def tokens (newLine : Bool) (chain : Chain) : List Token :=
  match chain.links with
  | [] => []
  | first :: rest => linkTokens "(" first.2 ++ rest.flatMap fun link => linkTokens (opening newLine link.1) link.2

/-- Every link is printed as it was read, and none closes a quote that an earlier one leaves open. -/
structure Separate (chain : Chain) : Prop where
  printed : ∀ link ∈ chain.links, link.2.text.printed = link.2.text.content
  unclosed : chain.links.Pairwise fun earlier later =>
    Quoted.Unclosed (Quoted.segments earlier.2.text.content) later.2.text.content

/-- The text of a chain from some link on. -/
def textFrom (newLine : Bool) (front : Text) (predicate : Predicate) (rest : List (Connective × Predicate)) : Text :=
  front ++ (predicate.text.content ++ (')' :: rest.flatMap fun link => opening newLine link.1 ++ (link.2.text.content ++ [')'])))

private theorem join_links (newLine : Bool) (front : Text) (links : List (Connective × Predicate)) :
    Text.join (separator newLine) (front :: links.map laterLink) =
      front ++ links.flatMap fun link => separator newLine ++ laterLink link := by
  induction links generalizing front with
  | nil => simp [Text.join]
  | cons link links ih =>
    rw [List.map_cons, Text.join, List.intercalate_cons_cons, ← Text.join, ih, List.flatMap_cons]
    simp only [List.append_assoc]

theorem text_eq (newLine : Bool) {first : Connective × Predicate} {rest : List (Connective × Predicate)}
    (printed : ∀ link ∈ first :: rest, link.2.text.printed = link.2.text.content) :
    (Chain.mk (first :: rest)).text newLine = textFrom newLine "(" first.2 rest := by
  have later : rest.flatMap (fun link => separator newLine ++ laterLink link) =
      rest.flatMap fun link => opening newLine link.1 ++ (link.2.text.content ++ [')']) := by
    refine List.flatMap_congr fun link member => ?_
    rw [laterLink, opening, printed link (List.mem_cons_of_mem _ member)]
    simp only [List.append_assoc]
    rfl
  have whole : (Chain.mk (first :: rest)).text newLine =
      Text.join (separator newLine) (("(" ++ first.2.text.printed ++ ")") :: rest.map laterLink) := rfl
  rw [whole, join_links, later, printed first List.mem_cons_self, textFrom]
  simp only [List.append_assoc]
  rfl

private theorem opening_plain (newLine : Bool) (connective : Connective) : (opening newLine connective).all isPlain = true := by
  cases newLine <;> cases connective <;> decide

private theorem closing (behind : Text) : SetOff (')' :: behind) :=
  ⟨.cons (by decide), .cons (by decide), .cons (by decide)⟩

/-- What is between the links closes no quote, so the links themselves decide. -/
private theorem unclosed_behind {newLine : Bool} {text : Text} {rest : List (Connective × Predicate)}
    (here : ∀ later ∈ rest, Quoted.Unclosed (Quoted.segments text) later.2.text.content) :
    Quoted.Unclosed (Quoted.segments text)
      (')' :: rest.flatMap fun link => opening newLine link.1 ++ (link.2.text.content ++ [')'])) := by
  intro segment member unquoted c inside quote occurs
  have parenthesis : c ≠ ')' := by
    rintro rfl
    exact absurd quote (by decide)
  obtain ⟨link, later, within⟩ := List.mem_flatMap.mp ((List.mem_cons.mp occurs).resolve_left parenthesis)
  rcases List.mem_append.mp within with opened | within
  · have plain := not_isQuote_of_isPlain (List.all_eq_true.mp (opening_plain newLine link.1) c opened)
    rw [plain] at quote
    cases quote
  · rcases List.mem_append.mp within with content | closed
    · exact here link later segment member unquoted c inside quote content
    · exact parenthesis (List.mem_singleton.mp closed)

/-- Links that close no quote of one another are read as each is on its own. -/
theorem read_textFrom (newLine : Bool) {front : Text} (ordinary : front.all isPlain = true) {predicate : Predicate}
    {rest : List (Connective × Predicate)}
    (here : ∀ later ∈ rest, Quoted.Unclosed (Quoted.segments predicate.text.content) later.2.text.content)
    (there : rest.Pairwise fun earlier later =>
      Quoted.Unclosed (Quoted.segments earlier.2.text.content) later.2.text.content) :
    read (textFrom newLine front predicate rest) =
      linkTokens front predicate ++ rest.flatMap fun link => linkTokens (opening newLine link.1) link.2 := by
  induction rest generalizing front predicate with
  | nil =>
    rw [textFrom, read_literal front ordinary, read_append_of_unclosed (unclosed_behind here) (closing _),
      (Slotted.read_plain (c := ')') (by decide) _).1, linkTokens, List.flatMap_nil, List.flatMap_nil, List.append_nil]
    rfl
  | cons next rest ih =>
    obtain ⟨first, others⟩ := List.pairwise_cons.mp there
    have further := ih (opening_plain newLine next.1) first others
    rw [textFrom] at further
    rw [textFrom, read_literal front ordinary, read_append_of_unclosed (unclosed_behind here) (closing _),
      (Slotted.read_plain (c := ')') (by decide) _).1, linkTokens, List.flatMap_cons, List.flatMap_cons, ← further]
    simp only [List.append_assoc, List.singleton_append]

namespace Separate

theorem read_text (separate : chain.Separate) (newLine : Bool) : read (chain.text newLine) = chain.tokens newLine := by
  obtain ⟨links⟩ := chain
  cases links with
  | nil => rfl
  | cons first rest =>
    obtain ⟨here, there⟩ := List.pairwise_cons.mp separate.unclosed
    rw [text_eq newLine separate.printed, read_textFrom newLine (by decide) here there]
    rfl

end Separate

theorem countP_plain (run : Text) : (run.map Token.plain).countP isMarker = 0 := by
  induction run with
  | nil => rfl
  | cons c run ih => rwa [List.map_cons, List.countP_cons_of_neg (by simp [isMarker])]

private theorem countP_linkTokens {front : Text} {predicate : Predicate} (made : predicate.Made) :
    (linkTokens front predicate).countP isMarker = predicate.values.length := by
  rw [linkTokens, List.countP_append, List.countP_append, countP_plain, ← made.counted, countMarkers]
  simp [isMarker]

/-- A link has a marker for each of its values, and so have all links together. -/
theorem countP_tokens (newLine : Bool) (made : ∀ link ∈ chain.links, link.2.Made) :
    (chain.tokens newLine).countP isMarker = chain.values.length := by
  obtain ⟨links⟩ := chain
  have later : ∀ rest : List (Connective × Predicate), (∀ link ∈ rest, link.2.Made) →
      (rest.flatMap fun link => linkTokens (opening newLine link.1) link.2).countP isMarker =
        (rest.flatMap (·.2.values)).length := by
    intro rest all
    induction rest with
    | nil => rfl
    | cons link rest ih =>
      rw [List.forall_mem_cons] at all
      rw [List.flatMap_cons, List.countP_append, List.flatMap_cons, List.length_append, countP_linkTokens all.1, ih all.2]
  cases links with
  | nil => rfl
  | cons first rest =>
    obtain ⟨here, there⟩ := List.forall_mem_cons.mp made
    rw [tokens, values, List.countP_append, List.flatMap_cons, List.length_append, countP_linkTokens here, later rest there]

/-! ### Chains that are numbered -/

private theorem bindable_values (made : ∀ link ∈ chain.links, link.2.Made) : Value.faultItems? chain.values = none := by
  obtain ⟨links⟩ := chain
  induction links with
  | nil => rfl
  | cons link rest ih =>
    obtain ⟨here, there⟩ := List.forall_mem_cons.mp made
    have others := ih there
    rw [values] at others ⊢
    rw [List.flatMap_cons, Value.faultItems?_append, here.bindable, others]
    rfl

/-- The predicate that a chain collapses into has the text of the chain and copies of its values, or there is none because the markers in the text are more or fewer. -/
theorem runFrom_toPredicate (made : ∀ link ∈ chain.links, link.2.Made) (newLine : Bool) (trace : Trace) :
    (countMarkers (chain.text newLine) = chain.values.length → ∃ copies after,
      runFrom trace (chain.toPredicate newLine) = (.ok ⟨.plain (chain.text newLine), copies⟩, after) ∧
        copies.map Value.content = chain.values.map Value.content) ∧
    (countMarkers (chain.text newLine) ≠ chain.values.length → ∃ after, runFrom trace (chain.toPredicate newLine) =
      (.error (.mismatch (chain.text newLine) (countMarkers (chain.text newLine)) chain.values.length), after)) := by
  obtain ⟨copies, after, content, done⟩ :=
    Predicate.runFrom_make (bindable_values made) (.plain (chain.text newLine)) trace
  rw [Wording.content_plain, Wording.printed_plain] at done
  constructor
  · intro counted
    rw [if_pos counted] at done
    exact ⟨copies, after, done, content⟩
  · intro miscounted
    rw [if_neg miscounted] at done
    exact ⟨after, done⟩

/-- From a start the chain is numbered, alone and as a clause: its text is that of the tokens with numbers for the markers, in order, and its values are copied in order. -/
def NumberedFrom (chain : Chain) (newLine : Bool) (tokens : List Token) (start : Int) : Prop :=
  ∀ trace : Trace,
    (∃ label held values after, runFrom trace (chain.renderFrom (.int start) newLine) =
        (.ok (.record label .rendered [.text (Token.bind start tokens), .list held values, .int (start + chain.values.length)]), after) ∧
      values.map Value.content = chain.values.map Value.content) ∧
    ∀ withWhere : Bool, ∃ values after, runFrom trace (chain.build (.int start) withWhere newLine) =
        (.ok ⟨.text ((if withWhere && !chain.isEmpty then ("WHERE " : Text) else []) ++ Token.bind start tokens), values⟩, after) ∧
      values.map Value.content = chain.values.map Value.content

/-- From a start the chain is not numbered. -/
def UnnumberedFrom (chain : Chain) (newLine : Bool) (error : Error) (start : Int) : Prop :=
  ∀ trace : Trace, (∃ after, runFrom trace (chain.renderFrom (.int start) newLine) = (.error error, after)) ∧
    ∀ withWhere : Bool, ∃ after, runFrom trace (chain.build (.int start) withWhere newLine) = (.error error, after)

/-- The chain is numbered from every start from which the numbers of its values can be written. -/
def NumberedAs (chain : Chain) (newLine : Bool) (tokens : List Token) : Prop :=
  ∀ start : Int,
    ((∀ n ∈ numbersFrom start chain.values.length, Numeral.Writable n) → chain.NumberedFrom newLine tokens start) ∧
    ((∃ n ∈ numbersFrom start chain.values.length, ¬ Numeral.Writable n) → chain.UnnumberedFrom newLine .numberTooLong start)

/-- The chain is numbered from no start. -/
def Unnumbered (chain : Chain) (newLine : Bool) (error : Error) : Prop :=
  ∀ start : Int, chain.UnnumberedFrom newLine error start

private theorem numberedFrom (made : ∀ link ∈ chain.links, link.2.Made) {newLine : Bool}
    (counted : countMarkers (chain.text newLine) = chain.values.length) {start : Int}
    (written : ∀ n ∈ numbersFrom start chain.values.length, Numeral.Writable n) :
    chain.NumberedFrom newLine (read (chain.text newLine)) start := by
  intro trace
  obtain ⟨copies, between, done, content⟩ := (runFrom_toPredicate made newLine trace).1 counted
  have bound : bindFrom (chain.text newLine) (.int start) =
      .ok (Token.bind start (read (chain.text newLine)), .int (start + chain.values.length)) := by
    rw [bindFrom_int, bindMarkers, boundMarkers, counted, Numeral.check_of_writable written]
    rfl
  by_cases empty : chain.isEmpty = true
  · obtain ⟨links⟩ := chain
    obtain rfl : links = [] := List.isEmpty_iff.mp empty
    refine ⟨⟨trace.nextLabel + 1, trace.nextLabel, [], { trace with nextLabel := trace.nextLabel + 1 + 1 }, ?_, rfl⟩,
      fun withWhere => ⟨[], trace, ?_, rfl⟩⟩
    · rw [renderFrom, if_pos empty]
      change _ = (Except.ok (Value.record _ _ [.text [], _, .int (start + 0)]), _)
      rw [Int.add_zero]
      rfl
    · rw [build, if_pos empty, empty, Bool.not_true, Bool.and_false]
      rfl
  · refine ⟨?_, fun withWhere => ?_⟩
    · rw [renderFrom, if_neg empty, runFrom_bind, done]
      change ∃ label held values after, runFrom between (liftM (bindFrom (chain.text newLine) (.int start)) >>= _) = _ ∧ _
      rw [bound]
      exact ⟨_, _, copies, _, rfl, content⟩
    · rw [build, if_neg empty, runFrom_bind, done, Bool.eq_false_iff.mpr empty, Bool.not_false, Bool.and_true]
      change ∃ values after, runFrom between (liftM (bindFrom (chain.text newLine) (.int start)) >>= _) = _ ∧ _
      rw [bound]
      exact ⟨_, _, rfl, (Value.content_copyItems _ _).trans content⟩

private theorem unnumberedFrom (made : ∀ link ∈ chain.links, link.2.Made) {newLine : Bool}
    (counted : countMarkers (chain.text newLine) = chain.values.length) {start : Int}
    (long : ∃ n ∈ numbersFrom start chain.values.length, ¬ Numeral.Writable n) :
    chain.UnnumberedFrom newLine .numberTooLong start := by
  intro trace
  obtain ⟨copies, between, done, -⟩ := (runFrom_toPredicate made newLine trace).1 counted
  obtain ⟨n, member, long⟩ := long
  have bound : bindFrom (chain.text newLine) (.int start) = .error .numberTooLong := by
    rw [bindFrom_int, bindMarkers, counted, Numeral.check_of_not_writable member long]
    rfl
  have some : chain.isEmpty ≠ true := by
    intro empty
    obtain ⟨links⟩ := chain
    obtain rfl : links = [] := List.isEmpty_iff.mp empty
    cases member
  refine ⟨⟨between, ?_⟩, fun withWhere => ⟨between, ?_⟩⟩
  · rw [renderFrom, if_neg some, runFrom_bind, done]
    change runFrom between (liftM (bindFrom (chain.text newLine) (.int start)) >>= _) = _
    rw [bound]
    rfl
  · rw [build, if_neg some, runFrom_bind, done]
    change runFrom between (liftM (bindFrom (chain.text newLine) (.int start)) >>= _) = _
    rw [bound]
    rfl

theorem numberedAs (made : ∀ link ∈ chain.links, link.2.Made) {newLine : Bool}
    (counted : countMarkers (chain.text newLine) = chain.values.length) :
    chain.NumberedAs newLine (read (chain.text newLine)) :=
  fun _ => ⟨numberedFrom made counted, unnumberedFrom made counted⟩

private theorem unnumbered (made : ∀ link ∈ chain.links, link.2.Made) {newLine : Bool}
    (miscounted : countMarkers (chain.text newLine) ≠ chain.values.length) :
    chain.Unnumbered newLine (.mismatch (chain.text newLine) (countMarkers (chain.text newLine)) chain.values.length) := by
  intro start trace
  obtain ⟨after, fails⟩ := (runFrom_toPredicate made newLine trace).2 miscounted
  have some : chain.isEmpty ≠ true := by
    intro empty
    obtain ⟨links⟩ := chain
    obtain rfl : links = [] := List.isEmpty_iff.mp empty
    exact miscounted rfl
  refine ⟨⟨after, ?_⟩, fun withWhere => ⟨after, ?_⟩⟩
  · rw [renderFrom, if_neg some, runFrom_bind, fails]
  · rw [build, if_neg some, runFrom_bind, fails]

/-- Whether a chain can be numbered is decided by the markers in the text of all its links together. If no link closes a quote of another, these are the markers that the links were accepted with: then the chain can be numbered from every start, and the k-th of its values belongs to the k-th of these markers, whose numbers are read again from the text unless one of them stands before a digit. -/
theorem Grown.renders (grown : chain.Grown) (newLine : Bool) :
    (countMarkers (chain.text newLine) = chain.values.length → chain.NumberedAs newLine (read (chain.text newLine))) ∧
    (countMarkers (chain.text newLine) ≠ chain.values.length → chain.Unnumbered newLine
      (.mismatch (chain.text newLine) (countMarkers (chain.text newLine)) chain.values.length)) ∧
    (chain.Separate → chain.NumberedAs newLine (chain.tokens newLine) ∧
      (chain.tokens newLine).countP isMarker = chain.values.length ∧
      (Slotted.Firm (chain.tokens newLine) → ∀ start : Nat,
        read (Token.bind start (chain.tokens newLine)) = bound start (chain.tokens newLine))) := by
  refine ⟨numberedAs grown.made, unnumbered grown.made, fun separate => ?_⟩
  have same := separate.read_text newLine
  have counted := countP_tokens newLine grown.made
  have agrees : countMarkers (chain.text newLine) = chain.values.length := by rw [countMarkers, same, counted]
  refine ⟨same ▸ numberedAs grown.made agrees, counted, fun firm start => ?_⟩
  rw [← same] at firm ⊢
  exact read_bind_of_firm firm start

/-- A text is accepted if it has a marker for each of its values. -/
private theorem Grown.ofText (grown : chain.Grown) (word : Connective) (text : Text) (values : List Value)
    (bindable : Value.faultItems? values = none) (counted : countMarkers text = values.length) :
    (chain.append word ⟨.plain text, (Value.copyItems 0 values).1⟩).Grown := by
  have named : Connective.ofValue (.text (Keyword.word word)) = .ok word := by cases word <;> rfl
  have length := Value.length_copyItems 0 values
  have checked : Value.checkAll values = Value.copyAll values := by rw [Value.checkAll, bindable]
  have made : runFrom {} (Predicate.make (.plain text) values) =
      (.ok ⟨.plain text, (Value.copyItems 0 values).1⟩, { nextLabel := (Value.copyItems 0 values).2 }) := by
    rw [Predicate.make, checked, runFrom_bind]
    change runFrom _ (if _ then pure _ else throw _) = _
    rw [Wording.content_plain, if_pos (counted.trans length.symm)]
    rfl
  have genuine : (Edit.ofText (.text (Keyword.word word)) text values).Genuine := trivial
  refine .change grown genuine ⟨{}, { nextLabel := (Value.copyItems 0 values).2 }, ?_⟩
  change runFrom {} (liftM (Connective.ofValue (.text (Keyword.word word))) >>= fun word => Predicate.make (.plain text) values >>= fun predicate =>
    pure (chain.append word predicate)) = _
  rw [named]
  change runFrom {} (Predicate.make (.plain text) values >>= _) = _
  rw [runFrom_bind, made]
  rfl

private def openBehind : Chain :=
  ⟨[(.and, ⟨.plain "a = '?' || ?", [.int 1]⟩), (.or, ⟨.plain "b' = ?", [.int 2]⟩)]⟩

/-- A quote that is left open in the last link is closed nowhere. -/
theorem renders_openBehind : openBehind.Grown ∧ openBehind.Separate ∧ openBehind.NumberedAs true (openBehind.tokens true) ∧
    Token.bind 4 (openBehind.tokens true) = "(a = '?' || $4)\n OR (b' = $5)" := by
  have first := Grown.empty.ofText .and "a = '?' || ?" [.int 1] rfl (by decide +kernel)
  have grown : openBehind.Grown := first.ofText .or "b' = ?" [.int 2] rfl (by decide +kernel)
  have closed : (Quoted.segments "a = '?' || ?").all (fun segment => segment.quoted || segment.text.all (!Quoted.isQuote ·)) = true := by
    decide +kernel
  have separate : openBehind.Separate := by
    refine ⟨fun link member => ?_, List.pairwise_pair.mpr (Quoted.Shut.unclosed (fun segment member unquoted => ?_) _)⟩
    · rcases List.mem_pair.mp member with rfl | rfl <;> rfl
    · have here := List.all_eq_true.mp closed segment member
      rw [unquoted, Bool.false_or] at here
      simpa using here
  exact ⟨grown, separate, ((grown.renders true).2.2 separate).1, by decide +kernel⟩

private def closedBehind : Chain :=
  ⟨[(.and, ⟨.plain "a' = ?", [.int 1]⟩), (.and, ⟨.plain "b' = ?", [.int 2]⟩)]⟩

private def movedInto : Chain :=
  ⟨[(.and, ⟨.plain "a' = ?", [.int 1]⟩), (.and, ⟨.plain "'b' = '?'", []⟩)]⟩

/-- A quote that is left open in one link and recurs in the next. A marker may be lost, and no text comes of the two links; or a question mark in a literal is taken for one. -/
theorem not_rendered_across_quote :
    (closedBehind.Grown ∧ closedBehind.Unnumbered true (.mismatch "(a' = ?)\n AND (b' = ?)" 1 2)) ∧
    (movedInto.Grown ∧ movedInto.NumberedAs true (read (movedInto.text true)) ∧
      Token.bind 1 (read (movedInto.text true)) = "(a' = ?)\n AND ('b' = '$1')") := by
  have first := Grown.empty.ofText .and "a' = ?" [.int 1] rfl (by decide +kernel)
  have lost : closedBehind.Grown := first.ofText .and "b' = ?" [.int 2] rfl (by decide +kernel)
  have moved : movedInto.Grown := first.ofText .and "'b' = '?'" [] rfl (by decide +kernel)
  have found : countMarkers (closedBehind.text true) = 1 := by decide +kernel
  have text : closedBehind.text true = "(a' = ?)\n AND (b' = ?)" := by decide +kernel
  have miscounted : countMarkers (closedBehind.text true) ≠ closedBehind.values.length := by
    rw [found]
    decide
  have fails := unnumbered lost.made miscounted
  rw [found, text] at fails
  exact ⟨⟨lost, fails⟩, moved, numberedAs moved.made (by decide +kernel), by decide +kernel⟩

end Chain

end SqlCompose
