import Mathlib
import SqlCompose.Chain.Edit
import SqlCompose.Proofs.AcceptedNames
import SqlCompose.Proofs.FreshCopies
import SqlCompose.Proofs.Verdicts

/-!
# Conditions that stay sound

A predicate is checked when it is made, and again whenever it becomes a part of another: its markers are counted in the text of the whole, and its values are looked at once more. A solid predicate passes these checks wherever it is put, and it has no schema token and no number of its own. What is made of solid predicates is solid, and a chain of them can always be collapsed and numbered.
-/

namespace SqlCompose

open Token Build

/-! ### Texts that expect values -/

theorem Spans.marker {text : Text} {start count : Nat} (spans : Spans text start count) : Spans ('?' :: text) start count := by
  obtain ⟨tokens, balanced⟩ := Slotted.read_marker text
  have numbers : placeholders ('?' :: text) = placeholders text := by
    rw [placeholders, tokens]
    rfl
  refine ⟨balanced spans.balanced, ?_, ?_, by rw [numbers]; exact spans.within, by rw [numbers]; exact spans.reached⟩
  · intro digits member
    rw [tokens] at member
    exact spans.schemaless digits ((List.mem_cons.mp member).resolve_left (by simp))
  · intro digits member
    rw [tokens] at member
    exact spans.readable digits ((List.mem_cons.mp member).resolve_left (by simp))

/-- A text with so many markers, none in front of a digit, and with no number and no schema token. -/
structure Expects (text : Text) (count : Nat) : Prop where
  awaits : Awaits text count
  spans : Spans text 0 0

namespace Expects

variable {text text' : Text} {count count' : Nat}

theorem counted (expects : Expects text count) : countMarkers text = count :=
  countMarkers_of_replicate expects.awaits

/-- A clean text without schema tokens expects a value for each of its markers. -/
theorem of_clean (clean : Clean text) (schemaless : Schemaless text) : Expects text (countMarkers text) := by
  refine ⟨clean.slotted, .of_numberless clean.balanced schemaless.not_mem ?_ 0⟩
  rw [clean.slotted.placeholders_eq]
  simp [Slot.number?]

theorem of_plain (ordinary : text.all isPlain = true) : Expects text 0 :=
  ⟨.of_plain ordinary, .of_plain ordinary 0⟩

theorem literal (run : Text) (ordinary : run.all isPlain = true) (expects : Expects text count) : Expects (run ++ text) count :=
  ⟨.literal run ordinary expects.awaits, expects.spans.literal run ordinary⟩

theorem marker (stop : text.BeginsOutside Text.isDigit) (expects : Expects text count) : Expects ('?' :: text) (count + 1) :=
  ⟨.marker (fun _ => stop) expects.awaits, expects.spans.marker⟩

theorem append (first : Expects text count) (second : Expects text' count') (apart : SetOff text') :
    Expects (text ++ text') (count + count') := by
  refine ⟨?_, first.spans.append_bare second.spans apart⟩
  rw [Awaits, ← List.replicate_append_replicate]
  exact Slotted.append first.awaits second.awaits apart.digit

theorem behind (run : Text) (ordinary : run.all isPlain = true) (first : run.head?.map setsOff = some true)
    (expects : Expects text count) : Expects (text ++ run) count := by
  have apart := SetOff.literal first []
  rw [List.append_nil] at apart
  exact expects.append (of_plain ordinary) apart

theorem join (separator : Text) (ordinary : separator.all isPlain = true) (first : separator.head?.map setsOff = some true)
    {texts : List Text} {counts : List Nat} (all : List.Forall₂ Expects texts counts) :
    Expects (Text.join separator texts) counts.sum := by
  induction all with
  | nil => exact of_plain rfl
  | @cons text count texts counts here there ih =>
    rw [List.sum_cons]
    cases there with
    | nil =>
      rw [Text.join, List.intercalate_singleton]
      exact here
    | cons next others =>
      rw [Text.join, List.intercalate_cons_cons, List.append_assoc]
      exact here.append (.literal separator ordinary ih) (.literal first _)

end Expects

/-! ### Solid predicates -/

namespace Predicate

/-- Read or printed, the text expects the values, and these can be bound. -/
structure Solid (predicate : Predicate) : Prop where
  content : Expects predicate.text.content predicate.values.length
  printed : Expects predicate.text.printed predicate.values.length
  bindable : Value.faultItems? predicate.values = none

variable {values : List Value} {predicate : Predicate}

theorem solid_of_make {text : Wording} {count : Nat} (content : Expects text.content count) (printed : Expects text.printed count)
    (made : (make text values).Yields predicate) : predicate.Solid := by
  obtain ⟨same, length, counted⟩ := of_make made
  obtain rfl : count = predicate.values.length := by rw [← content.counted, counted, length]
  exact ⟨by rwa [same], by rwa [same], sound_of_make made⟩

theorem solid_of_plain {text : Text} {count : Nat} (expects : Expects text count)
    (made : (make (.plain text) values).Yields predicate) : predicate.Solid :=
  @solid_of_make _ _ (.plain text) count expects expects made

theorem solid_combine {connective : Connective} {left right : Predicate} (first : left.Solid) (second : right.Solid)
    (made : (combine connective left right).Yields predicate) : predicate.Solid := by
  have last := (second.printed.behind ")" rfl (by decide)).literal " " rfl
  have middle := (last.literal (Keyword.word connective) (all_isPlain_word connective)).literal " " rfl
  have whole := (first.printed.append middle (.literal (by decide) _)).literal "(" rfl
  simp only [combine, List.append_assoc] at made
  exact solid_of_plain whole made

/-- A solid predicate is numbered from a start from which its numbers can be written. -/
theorem render_of_solid (solid : predicate.Solid) {start : Nat} (small : start + predicate.values.length ≤ 10 ^ Numeral.digitLimit) :
    predicate.render start = .ok (predicate.numbered start) ∧ Spans (predicate.numbered start).text start predicate.values.length ∧
      (predicate.numbered start).next = (start + predicate.values.length : Nat) := by
  refine ⟨render_of_bound (Int.natCast_nonneg start) ?_, .boundMarkers solid.content.awaits solid.content.spans.schemaless small, ?_⟩
  · rw [solid.content.counted]
    exact_mod_cast small
  · rw [Nat.cast_add]
    exact boundMarkers_snd solid.content.awaits start

end Predicate

/-! ### Chains -/

namespace Chain

variable {chain : Chain}

/-- Nothing but solid predicates in a chain. -/
def Solid (chain : Chain) : Prop :=
  ∀ link ∈ chain.links, link.2.Solid

private theorem expects_linkTexts {links : List (Connective × Predicate)} (solid : ∀ link ∈ links, link.2.Solid) :
    List.Forall₂ Expects (linkTexts links) (links.map (·.2.values.length)) := by
  have parenthesized : ∀ link ∈ links, Expects ("(" ++ (link.2.text.printed ++ ")")) link.2.values.length := fun link member =>
    ((solid link member).printed.behind ")" rfl (by decide)).literal "(" rfl
  cases links with
  | nil => exact .nil
  | cons first rest =>
    have later : ∀ link ∈ rest, Expects (laterLink link) link.2.values.length := by
      intro link member
      have shape : laterLink link = Keyword.word link.1 ++ (" " ++ ("(" ++ (link.2.text.printed ++ ")"))) := by simp [laterLink]
      rw [shape]
      exact ((parenthesized link (List.mem_cons_of_mem first member)).literal " " rfl).literal _ (all_isPlain_word link.1)
    rw [linkTexts, List.map_cons, List.append_assoc]
    refine .cons (parenthesized first (by simp)) ?_
    rw [List.forall₂_map_left_iff, List.forall₂_map_right_iff]
    exact List.forall₂_same.mpr later

/-- The text of a chain expects the values of all links. -/
theorem expects_text (solid : chain.Solid) (newLine : Bool) : Expects (chain.text newLine) chain.values.length := by
  have total : chain.values.length = (chain.links.map (·.2.values.length)).sum := List.length_flatMap
  rw [total]
  cases newLine with
  | true => exact .join "\n " rfl (by decide) (expects_linkTexts solid)
  | false => exact .join " " rfl (by decide) (expects_linkTexts solid)

theorem bindable (solid : chain.Solid) : Value.faultItems? chain.values = none := by
  refine Value.faultItems?_eq_none.mpr fun value member => ?_
  obtain ⟨link, inside, own⟩ := List.mem_flatMap.mp member
  exact Value.faultItems?_eq_none.mp (solid link inside).bindable value own

theorem solid_toPredicate (solid : chain.Solid) {newLine : Bool} {predicate : Predicate}
    (made : (chain.toPredicate newLine).Yields predicate) : predicate.Solid :=
  Predicate.solid_of_plain (expects_text solid newLine) made

theorem settles_toPredicate (solid : chain.Solid) (newLine : Bool) :
    (chain.toPredicate newLine).Settles False fun predicate =>
      predicate.Solid ∧ Value.SameContent predicate.values chain.values := by
  have expects := expects_text solid newLine
  have settles : (chain.toPredicate newLine).Settles False _ :=
    @Predicate.settles_make (.plain (chain.text newLine)) _ expects.counted (bindable solid)
  exact settles.yielding.mono fun predicate ⟨made, _, content⟩ => ⟨solid_toPredicate solid made, content⟩

end Chain

/-! ### Finished statements as conditions -/

/-- A built query with a text that spans the numbers of its values, wherever it is written. -/
structure BuiltQuery.Legible (built : BuiltQuery) : Prop where
  isText : ∃ text, built.text.asText = .ok text
  spans : ∀ text, built.text.Written text → Spans text 1 built.values.length

namespace BuiltQuery.Legible

variable {built : BuiltQuery}

theorem of_text {text : Text} (same : built.text = .text text) (spans : Spans text 1 built.values.length) : built.Legible := by
  refine ⟨⟨text, by rw [same]; rfl⟩, ?_⟩
  intro written shown
  obtain rfl : written = text := by
    rw [same] at shown
    rcases shown with reference | asText | printed
    · exact (Except.ok.inj reference).symm
    · exact (Except.ok.inj asText).symm
    · rw [Value.printed] at printed
      exact (Except.ok.inj printed).symm
  exact spans

/-- A legible query is read as a fragment whose text spans the numbers of its values. -/
theorem toFragment (legible : built.Legible) : ∃ wording : Wording, built.wording = .ok wording ∧
    built.toFragment = .ok ⟨wording, built.values⟩ ∧ built.text.printed = .ok wording.printed ∧
    wording.Spans 1 built.values.length := by
  obtain ⟨text, shown⟩ := legible.isText
  have written := legible.spans
  obtain ⟨given, values⟩ := built
  cases given with
  | text t =>
    have spans := written t (.inr (.inl rfl))
    exact ⟨.plain t, rfl, rfl, by simp [Value.printed], spans, spans⟩
  | entry e =>
    have printed : (Value.entry e).printed = .ok (e.list ++ "." ++ e.member) := by rw [Value.printed]
    exact ⟨.entry e, rfl, rfl, printed, written _ (.inr (.inl rfl)), written _ (.inr (.inr printed))⟩
  | _ => cases shown

/-- What a legible query is unnumbered to is solid, if it is accepted as a condition. -/
theorem solid_toPredicate (legible : built.Legible) {predicate : Predicate} (made : built.toPredicate.Yields predicate) :
    predicate.Solid := by
  obtain ⟨wording, -, read, -, spans⟩ := legible.toFragment
  obtain ⟨fragment, given, further⟩ := made.bind
  obtain ⟨text, unbound, last⟩ := further.bind
  rw [yields_lift] at given unbound
  obtain rfl := Except.ok.inj (read.symm.trans given)
  have inOrder : placeholders wording.content = List.range' 1 built.values.length ∧
      text = (Token.read wording.content).flatMap Token.unnumbered := by
    rcases Fragment.unbind_cases ⟨wording, built.values⟩ with ⟨-, digits, run⟩ | ⟨-, -, run⟩ | ⟨-, inOrder, run⟩
    · cases run.symm.trans unbound
    · cases run.symm.trans unbound
    · exact ⟨Fragment.inOrder_iff.mp inOrder, (Except.ok.inj (run.symm.trans unbound)).symm⟩
  have carries := Carries.of_balanced spans.content.balanced
  rw [inOrder.1] at carries
  have awaits : Awaits text built.values.length := Fragment.awaits_of_unbind carries unbound (Predicate.of_make last).2.2
  refine Predicate.solid_of_plain ⟨awaits, .of_numberless (Slotted.found awaits).balanced ?_ ?_ 0⟩ last
  · intro digits member
    rw [inOrder.2, read_unnumbered] at member
    obtain ⟨token, inside, same⟩ := List.mem_map.mp member
    cases token with
    | schema digits' =>
      obtain rfl : digits' = digits := Token.schema.inj same
      exact spans.content.schemaless digits' inside
    | _ => cases same
  · rw [awaits.placeholders_eq]
    simp [Slot.number?]

end BuiltQuery.Legible

/-! ### Solid conditions -/

/-- A condition that becomes a solid predicate, if it becomes one. -/
def Condition.Solid (condition : Condition) : Prop :=
  ∀ {values : List Value} {predicate : Predicate}, (condition.toPredicate values).Yields predicate → predicate.Solid

namespace Condition

theorem solid_text {text : Wording} (content : Clean text.content) (printed : Clean text.printed)
    (schemaless : Schemaless text.content) (schemaless' : Schemaless text.printed)
    (same : countMarkers text.printed = countMarkers text.content) : (Condition.text text).Solid := by
  intro values predicate made
  have printed' := Expects.of_clean printed schemaless'
  rw [same] at printed'
  exact Predicate.solid_of_make (.of_clean content schemaless) printed' made

theorem solid_predicate {predicate : Predicate} (solid : predicate.Solid) : (Condition.predicate predicate).Solid := by
  intro values other made
  rw [toPredicate] at made
  split at made
  · rw [← yields_pure.mp made]
    exact solid
  · exact absurd made not_yields_throw

theorem solid_chain {chain : Chain} (solid : chain.Solid) : (Condition.chain chain).Solid := by
  intro values predicate made
  obtain ⟨collapsed, first, made⟩ := Yields.bind made
  split at made
  · rw [← yields_pure.mp made]
    exact Chain.solid_toPredicate solid first
  · exact absurd made not_yields_throw

end Condition

theorem Predicate.solid_existence {negated : Bool} {condition : Condition} {values : List Value} {predicate : Predicate}
    (solid : condition.Solid) (made : (Chain.existence negated condition values).Yields predicate) : predicate.Solid := by
  obtain ⟨inner, first, made⟩ := Yields.bind made
  have body := (solid first).printed.behind ")" rfl (by decide)
  simp only [List.append_assoc] at made
  cases negated with
  | true => exact solid_of_plain (body.literal "NOT EXISTS (" rfl) made
  | false => exact solid_of_plain (body.literal "EXISTS (" rfl) made

end SqlCompose
