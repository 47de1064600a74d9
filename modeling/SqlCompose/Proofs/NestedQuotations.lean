import Mathlib
import SqlCompose.Proofs.Quotations
import SqlCompose.Proofs.SameQuery
import SqlCompose.Proofs.ValueEquality

/-!
# What is quoted in a nested statement

A wrapped member of a compound statement and a joined statement stand in the text of the outer statement with their placeholders renumbered and their lines set in by one blank. Renumbering, compaction and schemas leave quoted regions alone, but setting in does not know of quotes: it puts a blank behind every line break, and one more at each further level. So a nested statement keeps its quoted regions, in their order, with as many blanks behind their line breaks as it is deep (`Query.Nests.quotations`), and keeps them byte for byte if there is no line break in them.

What is asked for is that no quote is left open in front of the nested statement, in it, or by a schema; what stands behind it does not matter.
-/

namespace SqlCompose

open Build Quoted

/-! ### Texts with other texts around them -/

namespace Quoted.Encloses

variable {outer inner : Text}

theorem append (encloses : Encloses outer inner) {rest : Text} (apart : rest.BeginsOutside isQuote) :
    Encloses (outer ++ rest) inner := by
  obtain ⟨front, c, back, rfl, closed, other, behind⟩ := encloses
  exact ⟨front, c, back ++ rest, by simp, closed, other, behind.append apart⟩

theorem after {front : Text} (closed : Slotted.Balanced front) (encloses : Encloses outer inner) (apart : outer.BeginsOutside isQuote) :
    Encloses (front ++ outer) inner := by
  obtain ⟨front', c, back, rfl, closed', other, behind⟩ := encloses
  exact ⟨front ++ front', c, back, by simp, balanced_append closed closed' apart.of_append, other, behind⟩

theorem behind {front : Text} (closed : Slotted.Balanced front) {c : Char} (other : isQuote c = false)
    (encloses : Encloses outer inner) : Encloses (front ++ c :: outer) inner :=
  trans ⟨front, c, [], by simp, closed, other, .nil⟩ encloses

/-- A text among lines whose earlier ones leave no quote open. -/
theorem join {front back : List Text} (closed : ∀ text ∈ front, Slotted.Balanced text) (encloses : Encloses outer inner) :
    Encloses (Text.join "\n" (front ++ outer :: back)) inner := by
  induction front with
  | nil =>
    cases back with
    | nil => simpa [Text.join] using encloses
    | cons next back =>
      rw [List.nil_append, Text.join, List.intercalate_cons_cons, List.append_assoc]
      exact encloses.append (.cons (by decide))
  | cons first front ih =>
    have others := ih fun text member => closed text (List.mem_cons_of_mem _ member)
    obtain ⟨next, rest, shape⟩ : ∃ next rest, front ++ outer :: back = next :: rest := by cases front <;> simp
    rw [shape] at others
    rw [List.cons_append, shape, Text.join, List.intercalate_cons_cons, List.append_assoc]
    exact behind (closed first (by simp)) (by decide) others

end Quoted.Encloses

/-! ### Clauses -/

namespace Clause

/-- Whatever the clause is rendered to leaves no quote open. -/
def Shut (clause : Clause) : Prop :=
  ∀ {start numbered}, (clause start).Yields (some numbered) → Slotted.Balanced numbered.text

/-- The text of a clause stands among the texts of the statement, behind those of the clauses in front of it. -/
theorem texts_of_sequence {before after : List Clause} {clause : Clause} (shut : ∀ earlier ∈ before, earlier.Shut) {start : Int}
    {texts : List Text} {values : List Value} (done : (sequence start (before ++ clause :: after)).Yields (texts, values)) :
    ∃ from' rendered front back, (clause from').Yields rendered ∧ (∀ text ∈ front, Slotted.Balanced text) ∧
      texts = front ++ (rendered.map (·.text)).toList ++ back := by
  induction before generalizing start texts values with
  | nil =>
    obtain ⟨rendered, here, further⟩ := Yields.bind done
    cases rendered with
    | none => exact ⟨start, none, [], texts, here, List.forall_mem_nil _, rfl⟩
    | some numbered =>
      obtain ⟨⟨others, values'⟩, -, same⟩ := Yields.bind further
      cases yields_pure.mp same
      exact ⟨start, some numbered, [], others, here, List.forall_mem_nil _, rfl⟩
  | cons earlier before ih =>
    have later : ∀ next ∈ before, next.Shut := fun next member => shut next (List.mem_cons_of_mem _ member)
    obtain ⟨rendered, here, further⟩ := Yields.bind done
    cases rendered with
    | none => exact ih later further
    | some numbered =>
      obtain ⟨⟨others, values'⟩, there, same⟩ := Yields.bind further
      cases yields_pure.mp same
      obtain ⟨from', rendered, front, back, yields, closed, rfl⟩ := ih later there
      refine ⟨from', rendered, numbered.text :: front, back, yields, ?_, rfl⟩
      exact List.forall_mem_cons.mpr ⟨shut earlier (by simp) here, closed⟩

/-- What a clause encloses is enclosed by the statement. -/
theorem encloses_of_assemble {before after : List Clause} {clause : Clause} (shut : ∀ earlier ∈ before, earlier.Shut)
    {fragment : Fragment} (done : (assemble (before ++ clause :: after)).Yields fragment) :
    ∃ start rendered, (clause start).Yields rendered ∧ ∀ numbered ∈ rendered, ∀ inner, Encloses numbered.text inner →
      Encloses fragment.text.content inner := by
  obtain ⟨⟨texts, values⟩, sequenced, same⟩ := Yields.bind done
  obtain rfl := yields_pure.mp same
  obtain ⟨start, rendered, front, back, yields, closed, rfl⟩ := texts_of_sequence shut sequenced
  refine ⟨start, rendered, yields, fun numbered given inner encloses => ?_⟩
  obtain rfl : rendered = some numbered := given
  simpa using encloses.join closed

end Clause

/-! ### The text of a part -/

private theorem quoteless_of_all {text : Text} (all : text.all (fun c => !isQuote c) = true) : ∀ c ∈ text, isQuote c = false := by
  simpa using List.all_eq_true.mp all

/-- A text whose lines are set in, and whose quotes are all closed, in front of what follows. -/
private theorem encloses_between {front : Text} (closed : Slotted.Balanced front) (opening : Char) (other : isQuote opening = false)
    (inner : Text) {back : Text} (apart : back.BeginsOutside isQuote) : Encloses (front ++ opening :: (inner ++ back)) inner :=
  ⟨front, opening, back, rfl, closed, other, apart⟩

theorem Fragment.text_of_renumber {fragment : Fragment} {start : Int} {numbered : Numbered Wording}
    (done : fragment.renumber start = .ok numbered) : numbered.text = fragment.shiftedText start := by
  obtain ⟨-, -, rfl⟩ := renumber_eq_ok.mp done
  rfl

/-- A joined statement is set into the text of the join. -/
theorem Join.encloses_of_render {flavor : Flavor} {kind : JoinKind} {child : Child} {name : Value} {condition : Option Predicate}
    {start : Int} {rendered : Option Numbered} (done : (render flavor ⟨kind, .subquery child name, condition⟩ start).Yields rendered) :
    ∃ built fragment from' numbered, child.build.Yields built ∧ built.toFragment = .ok fragment ∧ rendered = some numbered ∧
      Encloses numbered.text (Text.indent 1 (fragment.shiftedText from').content) := by
  obtain ⟨source, here, further⟩ := Yields.bind done
  obtain ⟨built, finished, inside⟩ := Yields.bind here
  obtain ⟨fragment, isFragment, inside⟩ := Yields.bind inside
  obtain ⟨inner, renumbered, inside⟩ := Yields.bind inside
  obtain ⟨shown, -, same⟩ := Yields.bind inside
  obtain rfl := yields_pure.mp same
  have isFragment := yields_lift.mp isFragment
  have renumbered := yields_lift.mp renumbered
  have text := Fragment.text_of_renumber renumbered
  have opening : Slotted.Balanced (Keyword.word kind ++ " JOIN (") :=
    balanced_of_no_quotes (quoteless_of_all (by cases kind <;> rfl))
  have around (rest : Text) : Encloses (Keyword.word kind ++ " JOIN " ++ ("(\n" ++ Text.indent 1 inner.text.content ++ "\n) " ++ shown) ++ rest)
      (Text.indent 1 (fragment.shiftedText start).content) := by
    have whole := encloses_between opening '\n' (by decide) (Text.indent 1 inner.text.content)
      (show Text.BeginsOutside isQuote ("\n) " ++ (shown ++ rest)) from .cons (by decide))
    rw [text] at whole ⊢
    simpa using whole
  cases condition with
  | none =>
    obtain rfl := yields_pure.mp further
    exact ⟨built, fragment, start, _, finished, isFragment, rfl, by simpa using around []⟩
  | some predicate =>
    obtain ⟨condition, -, same⟩ := Yields.bind further
    obtain rfl := yields_pure.mp same
    exact ⟨built, fragment, start, _, finished, isFragment, rfl, by simpa using around ("\n ON " ++ condition.text)⟩

/-! ### Members -/

/-- The text of a fragment that is merged with others stands among theirs. -/
theorem Fragment.texts_of_mergeFrom {α : Type} {read : α → Except Error Fragment} {front rest : List α} {source : α} {start : Int}
    {merged : Merged} (done : mergeFrom read start (front ++ source :: rest) = .ok merged) :
    ∃ fragment from' texts texts', read source = .ok fragment ∧ merged.texts = texts ++ fragment.shiftedText from' :: texts' ∧
      List.Forall₂ (fun other text => ∃ fragment from', read other = .ok fragment ∧ text = fragment.shiftedText from') front texts ∧
      texts'.length = rest.length := by
  induction front generalizing start merged with
  | nil =>
    obtain ⟨fragment, isFragment, further⟩ := Outcome.bind_eq_ok.mp done
    obtain ⟨numbered, renumbered, further⟩ := Outcome.bind_eq_ok.mp further
    obtain ⟨others, there, same⟩ := Outcome.bind_eq_ok.mp further
    obtain rfl := Except.ok.inj same
    refine ⟨fragment, start, [], others.texts, isFragment, ?_, .nil, length_of_mergeFrom there⟩
    rw [text_of_renumber renumbered]
    rfl
  | cons first front ih =>
    obtain ⟨fragment, isFragment, further⟩ := Outcome.bind_eq_ok.mp done
    obtain ⟨numbered, renumbered, further⟩ := Outcome.bind_eq_ok.mp further
    obtain ⟨others, there, same⟩ := Outcome.bind_eq_ok.mp further
    obtain rfl := Except.ok.inj same
    obtain ⟨inner, from', texts, texts', isInner, shape, earlier, later⟩ := ih there
    refine ⟨inner, from', fragment.shiftedText start :: texts, texts', isInner, ?_, .cons ⟨fragment, start, isFragment, rfl⟩ earlier, later⟩
    rw [shape, text_of_renumber renumbered]
    rfl

namespace Compound

/-- A member as it is written in a wrapped list. -/
def wrappedMember (text : Wording) : Text :=
  Text.indent 1 ("(" ++ text.printed ++ ")")

private theorem balanced_wrappedMember {text : Wording} (closed : Slotted.Balanced text.printed) :
    Slotted.Balanced (wrappedMember text) := by
  refine balanced_indent 1 ?_
  have ending : Slotted.Balanced (text.printed ++ ")") :=
    balanced_append closed (balanced_of_no_quotes (quoteless_of_all (by decide))) (.cons (by decide))
  have opening : ∀ c ∈ ("(" : Text), isQuote c = false := quoteless_of_all (by decide)
  exact balanced_append_no_quotes opening ending

private theorem quoteless_separator (operator : SetOperator) :
    ∀ c ∈ ("\n\n" : Text) ++ Text.indent 1 (Keyword.word operator) ++ "\n", isQuote c = false :=
  quoteless_of_all (by cases operator <;> rfl)

private theorem laterMember_eq (text : Wording) (operator : SetOperator) :
    laterMember (Text.indent 1) (wrappedMember text) operator =
      (("\n\n" : Text) ++ Text.indent 1 (Keyword.word operator) ++ "\n") ++ '\n' :: wrappedMember text := by
  simp [laterMember]

/-- Members behind the first, as they are written in a wrapped list. -/
private def laterMembers (pairs : List (Wording × SetOperator)) : Text :=
  pairs.flatMap fun (text, operator) => laterMember (Text.indent 1) (wrappedMember text) operator

private theorem laterMembers_cons (text : Wording) (operator : SetOperator) (pairs : List (Wording × SetOperator)) :
    laterMembers ((text, operator) :: pairs) =
      (("\n\n" : Text) ++ Text.indent 1 (Keyword.word operator) ++ "\n") ++ '\n' :: (wrappedMember text ++ laterMembers pairs) := by
  simp [laterMembers, laterMember_eq]

private theorem laterMembers_apart (pairs : List (Wording × SetOperator)) : (laterMembers pairs).BeginsOutside isQuote := by
  cases pairs with
  | nil => exact .nil
  | cons pair pairs =>
    rw [laterMembers_cons]
    exact .cons (by decide)

/-- A member without what stands around it in a wrapped list. -/
private theorem encloses_wrappedMember (text : Wording) (back : Text) :
    Encloses (wrappedMember text ++ back) (text.printed.flatMap (Slotted.setIn 1)) := by
  have shape : wrappedMember text ++ back =
      " " ++ '(' :: (text.printed.flatMap (Slotted.setIn 1) ++ (")" ++ back)) := by
    simp [wrappedMember, Slotted.indent_eq, Slotted.setIn]
  rw [shape]
  exact ⟨" ", '(', ")" ++ back, rfl, balanced_of_no_quotes (quoteless_of_all (by decide)), by decide, .cons (by decide)⟩

private theorem encloses_laterMembers {front back : List (Wording × SetOperator)} {text : Wording} {operator : SetOperator}
    (closed : ∀ pair ∈ front, Slotted.Balanced pair.1.printed) :
    Encloses (laterMembers (front ++ (text, operator) :: back)) (text.printed.flatMap (Slotted.setIn 1)) := by
  induction front with
  | nil =>
    rw [List.nil_append, laterMembers_cons]
    exact .behind (balanced_of_no_quotes (quoteless_separator operator)) (by decide)
      (encloses_wrappedMember text (laterMembers back))
  | cons pair front ih =>
    obtain ⟨earlier, operator'⟩ := pair
    rw [List.forall_mem_cons] at closed
    rw [List.cons_append, laterMembers_cons]
    refine .behind (balanced_of_no_quotes (quoteless_separator operator')) (by decide) ?_
    exact .after (balanced_wrappedMember closed.1) (ih closed.2) (laterMembers_apart _)

/-- A member of a wrapped list, among members that leave no quote open in front of it. -/
theorem encloses_joinMembers {front back : List Wording} {text : Wording} {operators : List SetOperator}
    (closed : ∀ earlier ∈ front, Slotted.Balanced earlier.printed) (length : operators.length = (front ++ text :: back).length) :
    Encloses (joinMembers true (front ++ text :: back) operators) (text.printed.flatMap (Slotted.setIn 1)) := by
  cases front with
  | nil => exact encloses_wrappedMember text (laterMembers (back.zip operators.tail))
  | cons first front =>
    rw [List.forall_mem_cons] at closed
    have shape : joinMembers true (first :: front ++ text :: back) operators =
        wrappedMember first ++ laterMembers ((front ++ text :: back).zip operators.tail) := rfl
    obtain ⟨operators', operator, operators'', cut, same⟩ : ∃ operators' operator operators'',
        operators.tail = operators' ++ operator :: operators'' ∧ front.length = operators'.length := by
      have enough : front.length < operators.tail.length := by
        simp only [List.length_tail, length, List.length_append, List.length_cons]
        omega
      refine ⟨operators.tail.take front.length, operators.tail[front.length], operators.tail.drop (front.length + 1), ?_, ?_⟩
      · rw [List.getElem_cons_drop, List.take_append_drop]
      · rw [List.length_take]
        omega
    rw [shape, cut, List.zip_append same, List.zip_cons_cons]
    refine .after (balanced_wrappedMember closed.1) (encloses_laterMembers fun pair member => ?_) (laterMembers_apart _)
    exact closed.2 pair.1 (List.of_mem_zip member).1

end Compound

/-! ### Statements with parts -/

/-- Whatever a query is built to is a text that leaves no quote open. -/
def Query.Shut (query : Query) : Prop :=
  ∀ built, (query.build (some false) none).Yields built → ∃ text, built.text = .text text ∧ Slotted.Balanced text

/-- The clauses in front of the joins. -/
def Select.opening (select : Select Child) : List Clause :=
  [.with select.ctes, .plain select.selectClause, .plain select.fromClause]

/-- The clauses in front of the joins. -/
def Update.opening (update : Update Child) : List Clause :=
  [.with update.ctes, .plain update.targetClause, update.setClause, .optional update.fromClause]

/-- A query stands in another as a joined statement or as a member of a wrapped list, and neither what is in front of it nor a schema leaves a quote open. -/
inductive Query.Wraps : Query → Query → Prop
  | selectJoin {outer : Select Query} {front back : List (Join Query)} {kind : JoinKind} {part : Query} {name : Value}
      {condition : Option Predicate} (placed : outer.joins = front ++ ⟨kind, .subquery part name, condition⟩ :: back)
      (schemas : NoneIn outer.settings.schemas) (opening : ∀ clause ∈ (outer.map toChild).opening, clause.Shut)
      (earlier : ∀ join ∈ front, ((join.map toChild).render outer.settings.flavor).Shut) : Wraps (.of (.select outer)) part
  | updateJoin {outer : Update Query} {front back : List (Join Query)} {kind : JoinKind} {part : Query} {name : Value}
      {condition : Option Predicate} (placed : outer.joins = front ++ ⟨kind, .subquery part name, condition⟩ :: back)
      (schemas : NoneIn outer.settings.schemas) (opening : ∀ clause ∈ (outer.map toChild).opening, clause.Shut)
      (earlier : ∀ join ∈ front, ((join.map toChild).render outer.settings.flavor).Shut) : Wraps (.of (.update outer)) part
  | member {outer : Compound Query} {front back : List (Member Query)} {part : Query} {operator : SetOperator}
      (placed : outer.members = front ++ ⟨part, operator⟩ :: back) (schemas : NoneIn outer.settings.schemas)
      (ctes : (Clause.with (outer.map toChild).ctes).Shut)
      (opening : ∀ opening, outer.opening = .ok opening → Slotted.Balanced opening)
      (earlier : ∀ member ∈ front, member.query.Shut) : Wraps (.of (.compound outer)) part

/-- A query stands in another at some depth, in queries each of which leaves no quote open. -/
inductive Query.Nests : Nat → Query → Query → Prop
  | direct {outer part : Query} (wraps : Wraps outer part) (shut : part.Shut) : Nests 1 outer part
  | inside {depth : Nat} {outer part inner : Query} (wraps : Wraps outer part) (shut : part.Shut) (nests : Nests depth part inner) :
      Nests (depth + 1) outer inner

/-! ### What finishing leaves alone -/

/-- A finished statement has the quoted regions of what was rendered. -/
theorem Settings.regions_of_finish {settings : Settings} (schemas : NoneIn settings.schemas) {kind : StatementKind}
    {render : Build Fragment} {compact deep : Option Bool} {built : BuiltQuery}
    (done : (settings.finish kind render compact deep).Yields built) :
    ∃ fragment text, render.Yields fragment ∧ built.text = .text text ∧ regions text = regions fragment.text.content := by
  obtain ⟨fragment, rendered, further⟩ := done.bind
  obtain ⟨plain, substituted, further⟩ := further.bind
  have written : regions plain = regions fragment.text.content :=
    (restyled_withSchemas schemas (yields_lift.mp substituted)).regions_eq
  have last (final : Fragment) (last : Yields (do
      log Clause.queryLogger .debug
        ("Built " ++ Keyword.word kind ++ " query with " ++ Text.ofNat final.values.length ++ " parameter(s)")
      BuiltQuery.ofParts final.text.toValue final.values) built) : built.text = final.text.toValue := by
    obtain ⟨_, -, made⟩ := last.bind
    exact (BuiltQuery.of_ofParts made).1
  simp only at further
  split at further
  · obtain ⟨compacted, compaction, finished⟩ := further.bind
    have compaction := yields_lift.mp compaction
    have kept := regions_compact compaction
    obtain ⟨indices, -, given⟩ := Outcome.bind_eq_ok.mp compaction
    obtain ⟨state, -, same⟩ := Outcome.bind_eq_ok.mp given
    obtain rfl := Except.ok.inj same
    exact ⟨fragment, _, rendered, last _ finished, kept.trans written⟩
  · obtain ⟨final, same, finished⟩ := further.bind
    obtain rfl := yields_pure.mp same
    exact ⟨fragment, plain, rendered, last _ finished, written⟩

namespace Query

/-- With compaction and without, a query has the same quoted regions. -/
theorem regions_of_compactedFrom {text plain : Text} (compacted : CompactedFrom text plain) : regions text = regions plain := by
  rcases compacted with rfl | ⟨sameness, values, compacted, done, same⟩
  · rfl
  · have kept := regions_compact done
    rwa [same] at kept

private theorem plain_of_shut {query : Query} (shut : query.Shut) {built : BuiltQuery} {fragment : Fragment}
    (yields : query.toChild.build.Yields built) (read : built.toFragment = .ok fragment) :
    (query.build (some false) none).Yields built ∧
      ∃ text, built.text = .text text ∧ fragment.text = .plain text ∧ Slotted.Balanced text := by
  rw [build_toChild] at yields
  obtain ⟨text, isText, balanced⟩ := shut built yields
  refine ⟨yields, text, isText, ?_, balanced⟩
  obtain ⟨wording, worded, rfl⟩ := Outcome.map_eq_ok.mp read
  unfold BuiltQuery.wording at worded
  rw [isText] at worded
  exact (Except.ok.inj worded).symm

private theorem printed_shiftedText {fragment : Fragment} {text : Text} (plain : fragment.text = .plain text) (start : Int) :
    (fragment.shiftedText start).printed = (fragment.shiftedText start).content := by
  unfold Fragment.shiftedText
  split
  · rw [plain]
    rfl
  · rfl

/-- A join of a part is rendered to a text with the part set in. -/
private theorem sublist_of_join {clause : Clause} {flavor : Flavor} {kind : JoinKind} {part : Query} {name : Value}
    {condition : Option Predicate} (isJoin : clause = ((⟨kind, .subquery part name, condition⟩ : Join Query).map toChild).render flavor)
    (shut : part.Shut) {front back : List Clause} (closed : ∀ earlier ∈ front, earlier.Shut) {fragment : Fragment}
    (rendered : (Clause.assemble (front ++ clause :: back)).Yields fragment) :
    ∃ own plain, (part.build (some false) none).Yields own ∧ own.text = .text plain ∧
      ((regions plain).map (·.flatMap (Slotted.setIn 1))).Sublist (regions fragment.text.content) := by
  obtain ⟨start, joined, yields, encloses⟩ := Clause.encloses_of_assemble closed rendered
  rw [isJoin] at yields
  obtain ⟨built, inner, from', numbered, finished, isFragment, rfl, within⟩ := Join.encloses_of_render yields
  obtain ⟨alone, plain, isText, isPlain, balanced⟩ := plain_of_shut shut finished isFragment
  refine ⟨built, plain, alone, isText, ?_⟩
  have content : Slotted.Balanced inner.text.content := by rwa [isPlain]
  have sublist := (encloses numbered rfl _ within).regions_sublist (balanced_indent 1 (balanced_shiftedText content from'))
  rwa [regions_indent, regions_shiftedText, isPlain] at sublist

private theorem joins_placed {joins front back : List (Join Query)} {join : Join Query} (placed : joins = front ++ join :: back)
    (flavor : Flavor) (opening rest : List Clause) :
    opening ++ (joins.map (Join.map toChild)).map (Join.render flavor) ++ rest =
      (opening ++ front.map fun join => (join.map toChild).render flavor) ++
        (join.map toChild).render flavor :: ((back.map fun join => (join.map toChild).render flavor) ++ rest) := by
  simp [placed, Function.comp_def]

private theorem balanced_printed {fragment : Fragment} {text : Text} (plain : fragment.text = .plain text)
    (balanced : Slotted.Balanced text) (start : Int) : Slotted.Balanced (fragment.shiftedText start).printed := by
  rw [printed_shiftedText plain]
  refine balanced_shiftedText ?_ start
  rwa [plain]

private theorem split_forall₂ {α β : Type} {related : α → β → Prop} {front back : List α} {item : α} {others : List β}
    (every : List.Forall₂ related (front ++ item :: back) others) :
    ∃ front' item' back', List.Forall₂ related front front' ∧ related item item' ∧ others = front' ++ item' :: back' := by
  induction front generalizing others with
  | nil =>
    obtain ⟨item', back', first, -, rfl⟩ := List.forall₂_cons_left_iff.mp every
    exact ⟨[], item', back', .nil, first, rfl⟩
  | cons first front ih =>
    obtain ⟨first', rest', here, further, rfl⟩ := List.forall₂_cons_left_iff.mp every
    obtain ⟨front', item', back', others, there, rfl⟩ := ih further
    exact ⟨first' :: front', item', back', .cons here others, there, rfl⟩

/-- A member is written among texts with the member set in. -/
private theorem sublist_of_members {outer : Compound Query} {front back : List (Member Query)} {part : Query} {operator : SetOperator}
    (placed : outer.members = front ++ ⟨part, operator⟩ :: back) (shut : part.Shut)
    (opening : ∀ opening, outer.opening = .ok opening → Slotted.Balanced opening) (earlier : ∀ member ∈ front, member.query.Shut)
    {start : Int} {rendered : Option Numbered} (done : ((outer.map toChild).tableClause start).Yields rendered) :
    ∃ own plain numbered inner, (part.build (some false) none).Yields own ∧ own.text = .text plain ∧ rendered = some numbered ∧
      Encloses numbered.text inner ∧ Slotted.Balanced inner ∧ regions inner = (regions plain).map (·.flatMap (Slotted.setIn 1)) := by
  obtain ⟨merged, gathered, further⟩ := done.bind
  obtain ⟨opened, isOpening, further⟩ := further.bind
  obtain ⟨name, -, same⟩ := further.bind
  obtain rfl := yields_pure.mp same
  obtain ⟨_, -, gathered⟩ := gathered.bind
  obtain ⟨built, finished, merging⟩ := gathered.bind
  have merging := yields_lift.mp merging
  have every := finished.mapM
  have members : (outer.map toChild).members = (front.map fun member => ⟨member.query.toChild, member.operator⟩) ++
      ⟨part.toChild, operator⟩ :: back.map fun member => ⟨member.query.toChild, member.operator⟩ := by
    simp [Compound.map, placed]
  rw [members] at every
  obtain ⟨builtFront, finishedPart, builtBack, everyFront, partYields, rfl⟩ := split_forall₂ every
  obtain ⟨fragment, from', texts, texts', isFragment, cut, others, -⟩ := Fragment.texts_of_mergeFrom merging
  obtain ⟨alone, plain, isText, isPlain, balanced⟩ := plain_of_shut shut partYields isFragment
  have closed : ∀ text ∈ texts, Slotted.Balanced text.printed := by
    intro text member
    obtain ⟨other, inside, fragment', from'', isFragment', rfl⟩ := exists_of_mem_right others member
    obtain ⟨⟨query, _⟩, there, yields⟩ := exists_of_mem_right everyFront inside
    obtain ⟨given, inFront, same⟩ := List.mem_map.mp there
    obtain ⟨rfl, -⟩ := Member.mk.injEq .. |>.mp same
    obtain ⟨-, text, -, isPlain', balanced'⟩ := plain_of_shut (earlier given inFront) yields isFragment'
    exact balanced_printed isPlain' balanced' from''
  have length : (outer.map toChild).operators.length = merged.texts.length := by
    rw [Fragment.length_of_mergeFrom merging, ← every.length_eq, Compound.operators, List.length_map, members]
  rw [cut] at length
  have within := Compound.encloses_joinMembers closed length
  have content : Slotted.Balanced (fragment.shiftedText from').content := by
    refine balanced_shiftedText ?_ from'
    rwa [isPlain]
  have shutOpening : Slotted.Balanced opened := opening opened (yields_lift.mp isOpening)
  refine ⟨finishedPart, plain, _, _, alone, isText, rfl, ?_, balanced_flatMap (Slotted.harmless_setIn 1) content, ?_⟩
  · rw [cut, ← printed_shiftedText isPlain, List.append_assoc]
    refine .append (.trans ⟨opened, '\n', [], ?_, shutOpening, by decide, .nil⟩ within) (.cons (by decide))
    simp
  · rw [regions_flatMap (Slotted.harmless_setIn 1), regions_shiftedText, isPlain]
    rfl

/-- A query that wraps another has its quoted regions, with one blank behind each line break. -/
theorem Wraps.sublist {outer part : Query} (wraps : Wraps outer part) (shut : part.Shut) {compact deep : Option Bool}
    {built : BuiltQuery} (done : (outer.build compact deep).Yields built) :
    ∃ own plain whole, (part.build (some false) none).Yields own ∧ own.text = .text plain ∧ built.text = .text whole ∧
      ((regions plain).map (·.flatMap (Slotted.setIn 1))).Sublist (regions whole) := by
  cases wraps with
  | @selectJoin outer front back kind part name condition placed schemas opening earlier =>
    obtain ⟨fragment, whole, rendered, isText, same⟩ := Settings.regions_of_finish schemas done
    obtain ⟨_, -, assembled⟩ := rendered.bind
    change (Clause.assemble ((outer.map toChild).opening ++
      (outer.joins.map (Join.map toChild)).map (Join.render outer.settings.flavor) ++ _)).Yields fragment at assembled
    rw [joins_placed placed] at assembled
    obtain ⟨own, plain, alone, isPlain, sublist⟩ := sublist_of_join rfl shut
      (List.forall_mem_append.mpr ⟨opening, List.forall_mem_map.mpr earlier⟩) assembled
    exact ⟨own, plain, whole, alone, isPlain, isText, same ▸ sublist⟩
  | @updateJoin outer front back kind part name condition placed schemas opening earlier =>
    obtain ⟨fragment, whole, rendered, isText, same⟩ := Settings.regions_of_finish schemas done
    obtain ⟨_, -, rendered⟩ := rendered.bind
    obtain ⟨_, -, rendered⟩ := rendered.bind
    obtain ⟨_, -, assembled⟩ := rendered.bind
    change (Clause.assemble ((outer.map toChild).opening ++
      (outer.joins.map (Join.map toChild)).map (Join.render outer.settings.flavor) ++ _)).Yields fragment at assembled
    rw [joins_placed placed] at assembled
    obtain ⟨own, plain, alone, isPlain, sublist⟩ := sublist_of_join rfl shut
      (List.forall_mem_append.mpr ⟨opening, List.forall_mem_map.mpr earlier⟩) assembled
    exact ⟨own, plain, whole, alone, isPlain, isText, same ▸ sublist⟩
  | @member outer front back part operator placed schemas ctes opening earlier =>
    obtain ⟨fragment, whole, rendered, isText, same⟩ := Settings.regions_of_finish schemas done
    obtain ⟨_, -, rendered⟩ := rendered.bind
    obtain ⟨_, -, assembled⟩ := rendered.bind
    have before : ∀ clause ∈ [Clause.with (outer.map toChild).ctes], clause.Shut := List.forall_mem_singleton.mpr ctes
    obtain ⟨start, clause, yields, encloses⟩ := Clause.encloses_of_assemble before assembled
    obtain ⟨own, plain, numbered, inner, alone, isPlain, rfl, within, balanced, inside⟩ :=
      sublist_of_members placed shut opening earlier yields
    refine ⟨own, plain, whole, alone, isPlain, isText, ?_⟩
    rw [same, ← inside]
    exact (encloses numbered rfl inner within).regions_sublist balanced

private theorem setIn_setIn (depth : Nat) (text : Text) :
    (text.flatMap (Slotted.setIn depth)).flatMap (Slotted.setIn 1) = text.flatMap (Slotted.setIn (depth + 1)) := by
  rw [List.flatMap_assoc]
  congr 1
  funext c
  by_cases lineBreak : c = '\n'
  · have blanks : (List.replicate depth ' ').flatMap (Slotted.setIn 1) = List.replicate depth ' ' := by
      induction depth with
      | zero => rfl
      | succ depth ih => rw [List.replicate_succ, List.flatMap_cons, ih]; rfl
    simp only [Slotted.setIn, lineBreak, if_true, List.flatMap_cons] at blanks ⊢
    rw [blanks, List.replicate_succ]
    rfl
  · simp [Slotted.setIn, lineBreak]

private theorem setIn_of_one_line (depth : Nat) {text : Text} (oneLine : '\n' ∉ text) : text.flatMap (Slotted.setIn depth) = text := by
  induction text with
  | nil => rfl
  | cons c text ih =>
    simp only [List.mem_cons, not_or] at oneLine
    rw [List.flatMap_cons, ih oneLine.2, Slotted.setIn, if_neg (Ne.symm oneLine.1)]
    rfl

private theorem Nests.sublist {depth : Nat} {outer inner : Query} (nests : Nests depth outer inner) {compact deep : Option Bool}
    {built : BuiltQuery} (done : (outer.build compact deep).Yields built) :
    ∃ own plain whole, (inner.build (some false) none).Yields own ∧ own.text = .text plain ∧ built.text = .text whole ∧
      ((regions plain).map (·.flatMap (Slotted.setIn depth))).Sublist (regions whole) := by
  induction nests generalizing compact deep built with
  | direct wraps shut => exact wraps.sublist shut done
  | inside wraps shut _ ih =>
    obtain ⟨between, middle, whole, isBetween, isMiddle, isText, outside⟩ := wraps.sublist shut done
    obtain ⟨own, plain, text, alone, isPlain, same, within⟩ := ih isBetween
    obtain rfl := Value.text.inj (same.symm.trans isMiddle)
    refine ⟨own, plain, whole, alone, isPlain, isText, .trans ?_ outside⟩
    simpa only [List.map_map, Function.comp_def, setIn_setIn] using within.map (·.flatMap (Slotted.setIn 1))

/-- A query that stands in another at some depth keeps its quoted regions in their order, with as many blanks behind each of their line breaks as it is deep; regions on one line it keeps byte for byte. -/
theorem Nests.quotations {depth : Nat} {outer inner : Query} (nests : Nests depth outer inner) {compact deep compact' deep' : Option Bool}
    {built own : BuiltQuery} (done : (outer.build compact deep).Yields built) (alone : (inner.build compact' deep').Yields own)
    {text : Text} (isText : own.text = .text text) :
    ∃ whole, built.text = .text whole ∧ ((regions text).map (·.flatMap (Slotted.setIn depth))).Sublist (regions whole) ∧
      ((∀ region ∈ regions text, '\n' ∉ region) → (regions text).Sublist (regions whole)) := by
  obtain ⟨base, plain, whole, plainly, isPlain, isWhole, sublist⟩ := nests.sublist done
  obtain ⟨plain', isPlain', compacted⟩ := compactedFrom_of_build alone plainly isText
  obtain rfl := Value.text.inj (isPlain'.symm.trans isPlain)
  rw [← regions_of_compactedFrom compacted] at sublist
  refine ⟨whole, isWhole, sublist, fun oneLine => ?_⟩
  have kept : (regions text).map (·.flatMap (Slotted.setIn depth)) = regions text :=
    (List.map_congr_left fun region member => setIn_of_one_line depth (oneLine region member)).trans (List.map_id _)
  rwa [kept] at sublist

/-- A statement that selects a literal of two lines. -/
private def literal : Query :=
  .of (.select { table := .text "t", fields := [⟨.text "'a\nb'", true⟩] })

private def around : Query :=
  .of (.compound { name := .text "u", members := [⟨literal, .unionAll⟩] })

private def literalText : Text := "SELECT\n 'a\nb'\nFROM \"t\""

private def aroundText : Text := "SELECT * FROM (\n (SELECT\n  'a\n b'\n FROM \"t\")\n) AS u"

private theorem literal_yields : (literal.build (some false) none).Yields ⟨.text literalText, []⟩ :=
  ⟨{}, _, rfl⟩

private def textOf : Except Error BuiltQuery → Option Text
  | .ok ⟨.text text, _⟩ => some text
  | _ => none

private theorem around_yields : ∃ built, (around.build none none).Yields built ∧ built.text = .text aroundText := by
  have made : textOf (runFrom {} (around.build none none)).1 = some aroundText := by decide +kernel
  cases done : runFrom {} (around.build none none) with
  | mk outcome after =>
    rw [done] at made
    match outcome, made with
    | .ok ⟨.text text, values⟩, made =>
      obtain rfl := Option.some.inj made
      exact ⟨_, ⟨{}, after, done⟩, rfl⟩

private theorem balanced_literalText : Slotted.Balanced literalText := by
  intro segment member outside
  have every : (Quoted.segments literalText).all (fun segment => segment.quoted || segment.text.all (!isQuote ·)) = true := by
    decide +kernel
  have here := List.all_eq_true.mp every segment member
  rw [outside, Bool.false_or] at here
  simpa using here

private theorem shut_literal : literal.Shut := fun _ yields =>
  ⟨literalText, ((literal.alike_build none).of_yields yields literal_yields).text, balanced_literalText⟩

private theorem around_wraps : Wraps around literal := by
  have alone : [(⟨literal, .unionAll⟩ : Member Query)] = [] ++ ⟨literal, .unionAll⟩ :: [] := rfl
  refine .member alone (List.forall_mem_nil _) (fun yields => ?_) (fun opening done => ?_) (List.forall_mem_nil _)
  · cases yields_pure.mp yields
  · obtain rfl := Except.ok.inj done
    exact balanced_of_no_quotes (quoteless_of_all (by decide))

/-- A literal of two lines in a member comes back with a blank at the beginning of its second line. -/
theorem quotations_of_lines : ∃ built whole, (around.build none none).Yields built ∧ built.text = .text whole ∧
    [("'a\n b'" : Text), ("\"t\"" : Text)].Sublist (regions whole) := by
  obtain ⟨built, done, -⟩ := around_yields
  obtain ⟨whole, isText, sublist, -⟩ := (Nests.direct around_wraps shut_literal).quotations done literal_yields rfl
  have found : (regions literalText).map (·.flatMap (Slotted.setIn 1)) = [("'a\n b'" : Text), ("\"t\"" : Text)] := by
    decide +kernel
  exact ⟨built, whole, done, isText, found ▸ sublist⟩

/-- The literal itself is not found in the text around it, though no quote is open in either. -/
theorem not_kept_across_lines : Wraps around literal ∧ literal.Shut ∧
    ∃ own built text whole, (literal.build (some false) none).Yields own ∧ own.text = .text text ∧
      (around.build none none).Yields built ∧ built.text = .text whole ∧ ("'a\nb'" : Text) ∈ regions text ∧
        ("'a\nb'" : Text) ∉ regions whole ∧ ¬ (regions text).Sublist (regions whole) := by
  obtain ⟨built, done, isText⟩ := around_yields
  exact ⟨around_wraps, shut_literal, _, built, literalText, aroundText, literal_yields, rfl, done, isText,
    by decide +kernel, by decide +kernel, by decide +kernel⟩

end Query

end SqlCompose
