import Mathlib
import SqlCompose.Condition
import SqlCompose.Proofs.QuotedNames
import SqlCompose.Proofs.Yields

/-!
# Numbers through the clauses of a statement

Every clause gets the index of its first placeholder and gives the index after its last. `Clause.InRow` is the contract of a clause: its placeholders carry the numbers in between, one for each of its values, in the order of the text. Clauses that keep it make up statements that keep it (`Clause.assemble_inRow`).

The clauses are numbered in different ways: markers are bound, finished text is shifted, several texts are merged, and numbers are written out. Each way is one section here, said of the function that does it.
-/

namespace SqlCompose

open Token Build

/-- The numbers of placeholders in a row, one for each of some values. -/
def row (start : Nat) (values : List Value) : List Nat :=
  List.range' start values.length

theorem row_append (start : Nat) (first second : List Value) :
    row start (first ++ second) = row start first ++ row (start + first.length) second := by
  rw [row, List.length_append, row, row, List.range'_append_1]

theorem row_congr {values values' : List Value} (length : values.length = values'.length) (start : Nat) :
    row start values = row start values' := by
  rw [row, row, length]

/-- A numbered text whose placeholders belong to its values in order. -/
structure Numbered.InRow (numbered : Numbered) (start : Nat) : Prop where
  carries : Carries numbered.text (row start numbered.values)
  next : numbered.next = (start + numbered.values.length : Nat)

/-- A wording that carries the same numbers whether it is read or printed. -/
structure Wording.Carries (wording : Wording) (numbers : List Nat) : Prop where
  content : SqlCompose.Carries wording.content numbers
  printed : SqlCompose.Carries wording.printed numbers

theorem Wording.carries_plain {text : Text} {numbers : List Nat} (carries : SqlCompose.Carries text numbers) :
    (Wording.plain text).Carries numbers :=
  ⟨carries, carries⟩

/-! ### Finished text that is shifted -/

namespace Fragment

theorem shiftedText_carries {fragment : Fragment} (carries : fragment.text.Carries (row 1 fragment.values)) {start : Nat}
    (positive : 1 ≤ start) : (fragment.shiftedText start).Carries (row start fragment.values) := by
  obtain ⟨offset, rfl⟩ : ∃ offset, start = 1 + offset := ⟨start - 1, by omega⟩
  by_cases still : offset = 0
  · subst still
    exact carries
  · have plain : fragment.shiftedText ((1 + offset : Nat) : Int) =
        .plain (fragment.shiftedText ((1 + offset : Nat) : Int)).content := by
      have moved : ((1 + offset : Nat) : Int) ≠ 1 := by omega
      rw [shiftedText, if_neg moved]
      rfl
    have shifted := fragment.shiftedText_content offset
    rw [if_neg still] at shifted
    have numbers : (row 1 fragment.values).map (· + offset) = row (1 + offset) fragment.values := by
      have swapped : (fun n => n + offset) = fun n => offset + n := funext fun n => Nat.add_comm n offset
      rw [row, swapped, List.map_add_range', Nat.add_comm offset 1]
      rfl
    rw [plain]
    refine Wording.carries_plain ?_
    rw [Nat.cast_add, Nat.cast_one, shifted, ← numbers]
    exact carries.content.withNumbers (· + offset)

theorem renumber_carries {fragment : Fragment} (carries : fragment.text.Carries (row 1 fragment.values)) {start : Nat}
    (positive : 1 ≤ start) {numbered : Numbered Wording} (done : fragment.renumber start = .ok numbered) :
    numbered.text.Carries (row start numbered.values) ∧ numbered.next = (start + numbered.values.length : Nat) := by
  obtain ⟨-, -, rfl⟩ := renumber_eq_ok.mp done
  exact ⟨shiftedText_carries carries positive, by simp⟩

/-- Texts that carry the numbers of a row between them. -/
structure Merged.InRow (merged : Merged) (start : Nat) : Prop where
  carries : ∃ lists, List.Forall₂ Wording.Carries merged.texts lists ∧ lists.flatten = row start merged.values
  next : merged.next = (start + merged.values.length : Nat)

theorem mergeFrom_inRow {α : Type} {fragment : α → Except Error Fragment} {sources : List α}
    (sound : ∀ source ∈ sources, ∀ part, fragment source = .ok part → part.text.Carries (row 1 part.values)) {start : Nat}
    (positive : 1 ≤ start) {merged : Merged} (done : mergeFrom fragment start sources = .ok merged) :
    merged.InRow start := by
  induction sources generalizing start merged with
  | nil =>
    obtain rfl := Except.ok.inj done
    exact ⟨⟨[], .nil, rfl⟩, by simp⟩
  | cons source rest ih =>
    obtain ⟨part, read, further⟩ := Outcome.bind_eq_ok.mp done
    obtain ⟨first, numbered, last⟩ := Outcome.bind_eq_ok.mp further
    obtain ⟨others, merged', same⟩ := Outcome.bind_eq_ok.mp last
    obtain rfl := Except.ok.inj same
    obtain ⟨here, next⟩ := renumber_carries (sound source (by simp) part read) positive numbered
    rw [next] at merged'
    obtain ⟨⟨lists, there, flat⟩, beyond⟩ := ih (fun other member => sound other (List.mem_cons_of_mem _ member))
      (by omega) merged'
    refine ⟨⟨row start first.values :: lists, .cons here there, ?_⟩, ?_⟩
    · rw [List.flatten_cons, flat, row_append]
    · rw [beyond, List.length_append]
      push_cast
      omega

end Fragment

/-! ### Markers that are bound -/

/-- A text with so many markers, none of them in front of a digit, and without placeholders. -/
abbrev Awaits (text : Text) (count : Nat) : Prop :=
  Slotted True text (List.replicate count .free)

/-- A text whose only slots are markers, none of them in front of a digit. -/
def Marked (text : Text) : Prop :=
  ∃ count, Awaits text count

namespace Marked

variable {text : Text}

theorem awaits (marked : Marked text) : Awaits text (countMarkers text) := by
  obtain ⟨count, awaits⟩ := marked
  rw [countMarkers_of_replicate awaits]
  exact awaits

theorem literal (run : Text) (ordinary : run.all isPlain = true) (marked : Marked text) : Marked (run ++ text) := by
  obtain ⟨count, awaits⟩ := marked
  exact ⟨count, Slotted.literal run ordinary awaits⟩

theorem append {text' : Text} (first : Marked text) (second : Marked text') (apart : text'.BeginsOutside Text.isDigit) :
    Marked (text ++ text') := by
  obtain ⟨count, awaits⟩ := first
  obtain ⟨count', awaits'⟩ := second
  refine ⟨count + count', ?_⟩
  rw [Awaits, ← List.replicate_append_replicate]
  exact Slotted.append awaits awaits' apart

theorem behind (run : Text) (ordinary : run.all isPlain = true) (first : run.head?.map Text.isDigit = some false)
    (marked : Marked text) : Marked (text ++ run) := by
  obtain ⟨count, awaits⟩ := marked
  exact ⟨count, Slotted.behind run ordinary first awaits⟩

theorem join (separator : Text) (ordinary : separator.all isPlain = true)
    (first : separator.head?.map Text.isDigit = some false) {texts : List Text} (all : ∀ text ∈ texts, Marked text) :
    Marked (Text.join separator texts) := by
  have counts : ∃ counts : List Nat, List.Forall₂ (Slotted True) texts (counts.map fun count => List.replicate count .free) := by
    induction texts with
    | nil => exact ⟨[], .nil⟩
    | cons text texts ih =>
      obtain ⟨count, awaits⟩ := all text (by simp)
      obtain ⟨counts, others⟩ := ih fun other member => all other (List.mem_cons_of_mem _ member)
      exact ⟨count :: counts, .cons awaits others⟩
  obtain ⟨counts, slotted⟩ := counts
  have flat : (counts.map fun count => List.replicate count Slot.free).flatten = List.replicate counts.sum .free := by
    clear slotted
    induction counts with
    | nil => rfl
    | cons count counts ih =>
      rw [List.map_cons, List.flatten_cons, ih, List.replicate_append_replicate, List.sum_cons]
  have whole := Slotted.join separator ordinary first slotted
  rw [flat] at whole
  exact ⟨counts.sum, whole⟩

end Marked

theorem all_isPlain_word (connective : Connective) : (Keyword.word connective : Text).all isPlain = true := by
  cases connective <;> rfl

namespace Predicate

/-- A predicate with one marker for each value; printed, it may have markers and no other slots. -/
structure Ready (predicate : Predicate) : Prop where
  content : Awaits predicate.text.content predicate.values.length
  printed : Marked predicate.text.printed

theorem boundMarkers_snd {text : Text} {count : Nat} (awaits : Awaits text count) (start : Int) :
    (boundMarkers text start).2 = start + count := by
  rw [boundMarkers, countMarkers_of_replicate awaits]

theorem render_inRow {predicate : Predicate} (ready : predicate.Ready) {start : Nat} {rendered : Numbered}
    (done : predicate.render start = .ok rendered) : rendered.InRow start := by
  obtain rfl := eq_numbered_of_render done
  refine ⟨?_, ?_⟩
  · have slotted : Slotted False (boundMarkers predicate.text.content start).1
        ((List.range' start predicate.values.length).map .numbered) := ready.content.boundMarkers start
    have carries := Carries.of_slotted slotted
    have numbers : ((List.range' start predicate.values.length).map Slot.numbered).filterMap Slot.number? =
        row start predicate.values := by
      rw [List.filterMap_map]
      exact List.filterMap_some
    rw [numbers] at carries
    exact carries
  · have next := boundMarkers_snd ready.content (start : Int)
    rw [Nat.cast_add]
    exact next

/-- Making a predicate checks that the markers are as many as the values. -/
theorem ready_of_make {text : Wording} {values : List Value} {predicate : Predicate} (content : Marked text.content)
    (printed : Marked text.printed) (made : (make text values).Yields predicate) : predicate.Ready := by
  obtain ⟨same, length, counted⟩ := of_make made
  refine ⟨?_, ?_⟩
  · rw [same, length, ← counted]
    exact content.awaits
  · rw [same]
    exact printed

theorem ready_of_plain {text : Text} {values : List Value} {predicate : Predicate} (marked : Marked text)
    (made : (make (.plain text) values).Yields predicate) : predicate.Ready :=
  @ready_of_make (.plain text) values predicate marked marked made

theorem ready_combine {connective : Connective} {left right predicate : Predicate} (first : left.Ready)
    (second : right.Ready) (made : (combine connective left right).Yields predicate) : predicate.Ready := by
  refine ready_of_plain ?_ made
  have last := (second.printed.behind ")" rfl rfl).literal " " rfl
  have middle := last.literal (Keyword.word connective) (all_isPlain_word connective)
  simp only [List.append_assoc]
  exact .literal "(" rfl (first.printed.append (middle.literal " " rfl) (.of_head rfl _))

end Predicate

/-- Nothing but ready predicates in a chain. -/
def Chain.Ready (chain : Chain) : Prop :=
  ∀ link ∈ chain.links, link.2.Ready

namespace Chain

private theorem marked_linkTexts {links : List (Connective × Predicate)} (ready : ∀ link ∈ links, link.2.Ready) :
    ∀ text ∈ linkTexts links, Marked text := by
  have parenthesized : ∀ link ∈ links, Marked ("(" ++ (link.2.text.printed ++ ")")) := fun link member =>
    ((ready link member).printed.behind ")" rfl rfl).literal "(" rfl
  cases links with
  | nil => simp [linkTexts]
  | cons first rest =>
    intro text member
    rcases List.mem_cons.mp member with rfl | further
    · rw [List.append_assoc]
      exact parenthesized first (by simp)
    · obtain ⟨link, inside, rfl⟩ := List.mem_map.mp further
      have shape : laterLink link = Keyword.word link.1 ++ (" " ++ ("(" ++ (link.2.text.printed ++ ")"))) := by
        simp [laterLink]
      rw [shape]
      exact ((parenthesized link (List.mem_cons_of_mem _ inside)).literal " " rfl).literal _ (all_isPlain_word link.1)

theorem ready_toPredicate {chain : Chain} (ready : chain.Ready) {newLine : Bool} {predicate : Predicate}
    (made : (chain.toPredicate newLine).Yields predicate) : predicate.Ready := by
  refine Predicate.ready_of_plain ?_ made
  cases newLine with
  | true => exact .join "\n " rfl rfl (marked_linkTexts ready)
  | false => exact .join " " rfl rfl (marked_linkTexts ready)

theorem render_inRow {chain : Chain} (ready : chain.Ready) {newLine : Bool} {start : Nat} {numbered : Numbered}
    (yields : (chain.render start newLine).Yields numbered) : numbered.InRow start := by
  unfold render at yields
  split at yields
  · rw [yields_pure] at yields
    rw [← yields]
    exact ⟨.nil, by simp⟩
  · obtain ⟨predicate, made, same⟩ := yields.bind
    exact Predicate.render_inRow (ready_toPredicate ready made) (yields_lift.mp same)

end Chain

def Restriction.Ready : Restriction → Prop
  | chain held => held.item.Ready
  | predicate p => p.Ready
  | unusable _ _ => True

theorem Restriction.render_inRow {restriction : Restriction} (ready : restriction.Ready) {start : Nat} {numbered : Numbered}
    (yields : (restriction.render start).Yields numbered) : numbered.InRow start := by
  cases restriction with
  | chain held => exact Chain.render_inRow ready yields
  | predicate p =>
    exact Predicate.render_inRow ready (yields_lift.mp yields)
  | unusable _ _ => exact absurd yields not_yields_throw

/-! ### Finished statements -/

/-- What a fragment is unnumbered to has as many markers as the fragment has values only if all of them stand for placeholders. -/
theorem Fragment.awaits_of_unbind {fragment : Fragment} (carries : Carries fragment.text.content (row 1 fragment.values))
    {text : Text} (unbound : fragment.unbind = .ok text) (counted : countMarkers text = fragment.values.length) :
    Awaits text fragment.values.length := by
  obtain ⟨slots, slotted, numbers⟩ := carries
  have shape : text = (Token.read fragment.text.content).flatMap Token.unnumbered := by
    obtain ⟨indices, -, rest⟩ := Outcome.bind_eq_ok.mp unbound
    split at rest
    · exact (Except.ok.inj rest).symm
    · cases rest
  have marked : Slotted False text (List.replicate slots.length .free) := by
    have slotted' := slotted.unnumbered
    rw [← shape] at slotted'
    simpa using slotted'
  have count : slots.length = fragment.values.length := by
    rw [← counted, countMarkers_of_replicate marked]
  -- As many slots as placeholders: no slot is a marker.
  have numbered : ∀ slot ∈ slots, Slot.isFree slot = false := by
    have all : (slots.filterMap Slot.number?).length = slots.length := by
      rw [numbers, row, List.length_range', count]
    intro slot member
    have some := List.filterMap_length_eq_length.mp all slot member
    cases slot with
    | free => simp [Slot.number?] at some
    | numbered n => rfl
  have firm : Slotted True fragment.text.content slots := slotted.of_numbered numbered
  have slotted' := firm.unnumbered
  rw [← shape, List.map_const', count] at slotted'
  exact slotted'

namespace BuiltQuery

/-- A built query with a text that has closed quotes and the placeholders of its values in order, wherever it is written. -/
structure InRow (built : BuiltQuery) : Prop where
  isText : ∃ text, built.text.asText = .ok text
  balanced : ∀ text, built.text.Written text → Slotted.Balanced text
  placeholders : ∀ text, built.text.Written text → Token.placeholders text = List.range' 1 built.values.length

theorem InRow.carries {built : BuiltQuery} (inRow : built.InRow) {text : Text} (written : built.text.Written text) :
    Carries text (row 1 built.values) := by
  have carries := Carries.of_balanced (inRow.balanced text written)
  rw [inRow.placeholders text written] at carries
  exact carries

theorem inRow_of_ofParts {text : Text} {values : List Value} {built : BuiltQuery} (carries : Carries text (row 1 values))
    (made : (ofParts (.text text) values).Yields built) : built.InRow := by
  obtain ⟨same, length⟩ := of_ofParts made
  rw [← row_congr length] at carries
  have given : ∀ written, built.text.Written written → written = text := by
    intro written shown
    rw [same] at shown
    rcases shown with reference | asText | printed
    · exact (Except.ok.inj reference).symm
    · exact (Except.ok.inj asText).symm
    · rw [Value.printed] at printed
      exact (Except.ok.inj printed).symm
  refine ⟨⟨text, by rw [same]; rfl⟩, ?_, ?_⟩
  · intro written shown
    rw [given written shown]
    exact carries.balanced
  · intro written shown
    rw [given written shown]
    exact carries.placeholders_eq

theorem toFragment_carries {built : BuiltQuery} (inRow : built.InRow) {fragment : Fragment}
    (read : built.toFragment = .ok fragment) : fragment.text.Carries (row 1 fragment.values) := by
  obtain ⟨wording, shown, rfl⟩ := Outcome.map_eq_ok.mp read
  have same : Wording.ofValue? built.text = some wording := by
    unfold BuiltQuery.wording at shown
    split at shown
    · next wording' found =>
      rw [found, Except.ok.inj shown]
    · cases shown
  cases text : built.text with
  | text t =>
    rw [text] at same
    obtain rfl := Option.some.inj same
    have carries := inRow.carries (.inr (.inl (by rw [text]; rfl)) : built.text.Written t)
    exact ⟨carries, carries⟩
  | entry e =>
    rw [text] at same
    obtain rfl := Option.some.inj same
    refine ⟨inRow.carries (.inr (.inl (by rw [text]; rfl))), inRow.carries (.inr (.inr ?_))⟩
    rw [text, Value.printed]
    rfl
  | _ =>
    rw [text] at same
    cases same

/-- A finished statement becomes a predicate only if it has no markers besides those that stand in for its placeholders. -/
theorem ready_toPredicate {built : BuiltQuery} (inRow : built.InRow) {predicate : Predicate}
    (made : built.toPredicate.Yields predicate) : predicate.Ready := by
  obtain ⟨fragment, read, further⟩ := made.bind
  rw [yields_lift] at read
  obtain ⟨text, unbound, last⟩ := further.bind
  rw [yields_lift] at unbound
  have values : fragment.values = built.values := by
    obtain ⟨wording, -, rfl⟩ := Outcome.map_eq_ok.mp read
    rfl
  have counted := (Predicate.of_make last).2.2
  rw [← values] at counted
  exact Predicate.ready_of_plain ⟨_, Fragment.awaits_of_unbind (toFragment_carries inRow read).content unbound counted⟩ last

end BuiltQuery

end SqlCompose
