import Mathlib
import SqlCompose.Proofs.SlotRewriting

/-!
# The numbers that a text carries

`Carries` is what is wanted of the parts of a statement: their quotes are closed, and their placeholders have certain numbers. Parts are put together by writing literal text between them, which has no quotes and no signs.

Names and expressions carry no numbers. For a name it is enough that it has no quote character and no dollar sign in front of a digit, because then the same holds of every part that is cut out of it and put into quotes. An expression may have quotes if they are closed; it too may be cut and quoted, so no dollar sign may stand in front of a digit anywhere in it.
-/

namespace SqlCompose

open Token

/-- A text whose quotes are all closed, with the numbers of its placeholders in the order of the text. -/
def Carries (text : Text) (numbers : List Nat) : Prop :=
  ∃ slots, Slotted False text slots ∧ slots.filterMap Slot.number? = numbers

namespace Carries

variable {text : Text} {numbers : List Nat}

theorem placeholders_eq (carries : Carries text numbers) : placeholders text = numbers := by
  obtain ⟨slots, slotted, rfl⟩ := carries
  exact slotted.placeholders_eq

theorem of_slotted {slots : List Slot} (slotted : Slotted False text slots) : Carries text (slots.filterMap Slot.number?) :=
  ⟨slots, slotted, rfl⟩

/-- A text whose quotes are closed carries its placeholders. -/
theorem of_balanced (balanced : Slotted.Balanced text) : Carries text (placeholders text) := by
  have slotted := @Slotted.of_balanced False text balanced False.elim
  rw [slotted.placeholders_eq]
  exact of_slotted slotted

theorem balanced (carries : Carries text numbers) : Slotted.Balanced text := by
  obtain ⟨slots, slotted, -⟩ := carries
  exact slotted.found.balanced

theorem nil : Carries [] [] :=
  ⟨[], .nil, rfl⟩

theorem append {text' : Text} {numbers' : List Nat} (first : Carries text numbers) (second : Carries text' numbers')
    (apart : text'.BeginsOutside Text.isDigit) : Carries (text ++ text') (numbers ++ numbers') := by
  obtain ⟨slots, slotted, rfl⟩ := first
  obtain ⟨slots', slotted', rfl⟩ := second
  exact ⟨slots ++ slots', slotted.append slotted' apart, List.filterMap_append⟩

theorem literal (run : Text) (ordinary : run.all isPlain = true) (carries : Carries text numbers) :
    Carries (run ++ text) numbers := by
  obtain ⟨slots, slotted, rfl⟩ := carries
  exact ⟨slots, .literal run ordinary slotted, rfl⟩

theorem of_plain (ordinary : text.all isPlain = true) : Carries text [] :=
  ⟨[], .of_plain ordinary, rfl⟩

/-- Literal text that does not begin with a digit can stand behind anything. -/
theorem behind (run : Text) (ordinary : run.all isPlain = true) (first : run.head?.map Text.isDigit = some false)
    (carries : Carries text numbers) : Carries (text ++ run) numbers := by
  obtain ⟨slots, slotted, rfl⟩ := carries
  exact ⟨slots, slotted.behind run ordinary first, rfl⟩

theorem join (separator : Text) (ordinary : separator.all isPlain = true)
    (first : separator.head?.map Text.isDigit = some false) {texts : List Text} {lists : List (List Nat)}
    (all : List.Forall₂ Carries texts lists) : Carries (Text.join separator texts) lists.flatten := by
  have slots : ∃ slots, List.Forall₂ (Slotted False) texts slots ∧ slots.map (·.filterMap Slot.number?) = lists := by
    induction all with
    | nil => exact ⟨[], .nil, rfl⟩
    | cons here _ ih =>
      obtain ⟨slots, slotted, rfl⟩ := here
      obtain ⟨others, rest, rfl⟩ := ih
      exact ⟨slots :: others, .cons slotted rest, rfl⟩
  obtain ⟨slots, slotted, rfl⟩ := slots
  exact ⟨slots.flatten, .join separator ordinary first slotted, List.filterMap_flatten⟩

theorem join_nil (separator : Text) (ordinary : separator.all isPlain = true)
    (first : separator.head?.map Text.isDigit = some false) {texts : List Text} (all : ∀ text ∈ texts, Carries text []) :
    Carries (Text.join separator texts) [] := by
  have lists : List.Forall₂ Carries texts (texts.map fun _ => []) := by
    induction texts with
    | nil => exact .nil
    | cons text texts ih => exact .cons (all text (by simp)) (ih fun other member => all other (List.mem_cons_of_mem _ member))
  have whole := join separator ordinary first lists
  have empty : (texts.map fun _ => ([] : List Nat)).flatten = [] := by simp
  rwa [empty] at whole

theorem indent (spaces : Nat) (carries : Carries text numbers) : Carries (Text.indent spaces text) numbers := by
  obtain ⟨slots, slotted, rfl⟩ := carries
  exact ⟨slots, slotted.indent spaces, rfl⟩

theorem double {c : Char} (ordinary : isPlain c = true) (other : Text.isDigit c = false) (carries : Carries text numbers) :
    Carries (Text.double c text) numbers := by
  obtain ⟨slots, slotted, rfl⟩ := carries
  exact ⟨slots, slotted.double ordinary other, rfl⟩

theorem substituteSchemas {schemas : List Value} {out : Text} (carries : Carries text numbers)
    (named : Slotted.NamedBy schemas) (done : Identifier.substituteSchemas schemas text = .ok out) : Carries out numbers := by
  obtain ⟨slots, slotted, rfl⟩ := carries
  exact ⟨slots, slotted.substituteSchemas named done, rfl⟩

private theorem number?_renumber (number : Nat → Nat) (slots : List Slot) :
    (slots.map (Slot.renumber number)).filterMap Slot.number? = (slots.filterMap Slot.number?).map number := by
  rw [List.filterMap_map, List.map_filterMap]
  congr 1
  funext slot
  cases slot <;> rfl

theorem withNumbers (carries : Carries text numbers) (number : Nat → Nat) :
    Carries (Token.withNumbers number text) (numbers.map number) := by
  obtain ⟨slots, slotted, rfl⟩ := carries
  exact ⟨_, slotted.withNumbers number, number?_renumber number slots⟩

end Carries

/-! ### Texts without placeholders -/

/-- None of some signs stands right in front of a digit. -/
def Apart (signs : Char → Bool) (text : Text) : Prop :=
  text.IsChain fun c d => signs c = true → Text.isDigit d = false

instance (signs : Char → Bool) (text : Text) : Decidable (Apart signs text) :=
  inferInstanceAs (Decidable (List.IsChain _ _))

theorem Apart.of_infix {signs : Char → Bool} {part whole : Text} (apart : Apart signs whole) (inside : part <:+: whole) :
    Apart signs part :=
  List.IsChain.infix apart inside

def isDollar (c : Char) : Bool :=
  c == '$'

/-- A clean text: every quote character lies in a quoted segment, and in unquoted text no sign stands right in front of a digit. -/
structure Clean (text : Text) : Prop where
  balanced : Slotted.Balanced text
  apart : ∀ segment ∈ Quoted.segments text, segment.quoted = false → Apart isSign segment.text

/-- No dollar sign stands right in front of a digit, not even in quotes. -/
def Numberless (text : Text) : Prop :=
  Apart isDollar text

/-- A text that can be a name: it has no quote character and no number. -/
structure Nameable (text : Text) : Prop where
  quoteless : ∀ c ∈ text, Quoted.isQuote c = false
  numberless : Numberless text

/-- A text that can be an expression: its quotes are closed and it has no number. -/
structure Expressible (text : Text) : Prop where
  balanced : Slotted.Balanced text
  numberless : Numberless text

-- Without this instance all characters there are would be gone through.
instance (text : Text) : Decidable (∀ c ∈ text, Quoted.isQuote c = false) :=
  List.decidableBAll _ text

instance (text : Text) : Decidable (Slotted.Balanced text) :=
  inferInstanceAs (Decidable (∀ segment ∈ Quoted.segments text, segment.quoted = false →
    ∀ c ∈ segment.text, Quoted.isQuote c = false))

instance (text : Text) : Decidable (Clean text) :=
  decidable_of_iff (Slotted.Balanced text ∧ ∀ segment ∈ Quoted.segments text, segment.quoted = false →
    Apart isSign segment.text) ⟨fun both => ⟨both.1, both.2⟩, fun clean => ⟨clean.balanced, clean.apart⟩⟩

instance (text : Text) : Decidable (Nameable text) :=
  decidable_of_iff ((∀ c ∈ text, Quoted.isQuote c = false) ∧ Apart isDollar text)
    ⟨fun both => ⟨both.1, both.2⟩, fun nameable => ⟨nameable.quoteless, nameable.numberless⟩⟩

private theorem slotted_of_apart {firm : Prop} {signs : Char → Bool} (dollar : signs '$' = true)
    (question : firm → signs '?' = true) {text rest : Text} {slots : List Slot}
    (none : ∀ c ∈ text, Quoted.isQuote c = false) (apart : Apart signs text) (others : Slotted firm rest slots)
    (stop : rest.BeginsOutside Text.isDigit) :
    ∃ count, Slotted firm (text ++ rest) (List.replicate count .free ++ slots) := by
  induction text with
  | nil => exact ⟨0, others⟩
  | cons c text ih =>
    obtain ⟨count, slotted⟩ := ih (fun d member => none d (List.mem_cons_of_mem _ member))
      (apart.of_infix (List.suffix_cons c text).isInfix)
    have next : signs c = true → Text.BeginsOutside Text.isDigit (text ++ rest) := by
      intro sign
      cases text with
      | nil => exact stop
      | cons d text => exact .cons ((List.isChain_cons_cons.mp apart).1 sign)
    by_cases sign : isSign c
    · rcases (by simpa [isSign] using sign : c = '?' ∨ c = '$') with rfl | rfl
      · exact ⟨count + 1, .marker (fun h => next (question h)) slotted⟩
      · exact ⟨count, .dollar (next dollar) slotted⟩
    · exact ⟨count, .plain (by simp [isPlain, sign, none c (by simp)]) slotted⟩

private theorem slotted_of_wellCut {firm : Prop} {signs : Char → Bool} (dollar : signs '$' = true)
    (question : firm → signs '?' = true) {pieces : List Segment} (wellCut : Quoted.WellCut pieces)
    (none : ∀ piece ∈ pieces, piece.quoted = false → ∀ c ∈ piece.text, Quoted.isQuote c = false)
    (apart : ∀ piece ∈ pieces, piece.quoted = false → Apart signs piece.text) :
    ∃ count, Slotted firm (Quoted.whole pieces) (List.replicate count .free) := by
  induction wellCut with
  | nil => exact ⟨0, .nil⟩
  | @unquoted text rest _ separate _ others ih =>
    obtain ⟨count, slotted⟩ := ih (fun piece member => none piece (List.mem_cons_of_mem _ member))
      fun piece member => apart piece (List.mem_cons_of_mem _ member)
    have here : (⟨text, false⟩ : Segment) ∈ ⟨text, false⟩ :: rest := List.mem_cons_self
    obtain ⟨more, whole⟩ := slotted_of_apart dollar question (none _ here rfl) (apart _ here rfl) slotted
      (Slotted.apart_of_separate separate others)
    rw [List.replicate_append_replicate] at whole
    rw [Quoted.whole_cons]
    exact ⟨more + count, whole⟩
  | quoted inner isQuote _ _ ih =>
    obtain ⟨count, slotted⟩ := ih (fun piece member => none piece (List.mem_cons_of_mem _ member))
      fun piece member => apart piece (List.mem_cons_of_mem _ member)
    rw [Quoted.whole_cons]
    exact ⟨count, .quoted inner isQuote slotted⟩

theorem countMarkers_of_replicate {firm : Prop} {text : Text} {count : Nat}
    (slotted : Slotted firm text (List.replicate count .free)) : countMarkers text = count := by
  rw [slotted.countMarkers_eq, List.countP_replicate]
  rfl

theorem Clean.slotted {text : Text} (clean : Clean text) : Slotted True text (List.replicate (countMarkers text) .free) := by
  obtain ⟨count, slotted⟩ := @slotted_of_wellCut True isSign rfl (fun _ => rfl) _ (Quoted.wellCut_segments text)
    clean.balanced clean.apart
  rw [Quoted.whole_segments] at slotted
  rw [countMarkers_of_replicate slotted]
  exact slotted

namespace Expressible

variable {text : Text}

/-- The slots of an expression are its markers; one of them may stand in front of a digit. -/
theorem slotted (expressible : Expressible text) : Slotted False text (List.replicate (countMarkers text) .free) := by
  have apart : ∀ segment ∈ Quoted.segments text, segment.quoted = false → Apart isDollar segment.text := by
    intro segment member _
    have inside : segment.text <:+: (Quoted.segments text).flatMap (·.text) := by
      rw [List.flatMap_def]
      exact List.infix_of_mem_flatten (List.mem_map_of_mem member)
    rw [Quoted.flatMap_segments] at inside
    exact Apart.of_infix expressible.numberless inside
  obtain ⟨count, slotted⟩ := @slotted_of_wellCut False _ rfl False.elim _ (Quoted.wellCut_segments text)
    expressible.balanced apart
  rw [Quoted.whole_segments] at slotted
  rw [countMarkers_of_replicate slotted]
  exact slotted

theorem carries (expressible : Expressible text) : Carries text [] := by
  refine ⟨_, expressible.slotted, ?_⟩
  simp [Slot.number?]

theorem unslotted (expressible : Expressible text) (none : countMarkers text = 0) : Slotted True text [] := by
  have slotted := expressible.slotted
  rw [none] at slotted
  exact slotted.of_numbered (by simp)

end Expressible

namespace Nameable

variable {text : Text}

theorem expressible (nameable : Nameable text) : Expressible text := by
  refine ⟨?_, nameable.numberless⟩
  intro segment member _ c inside
  have whole : c ∈ (Quoted.segments text).flatMap (·.text) := List.mem_flatMap.mpr ⟨segment, member, inside⟩
  rw [Quoted.flatMap_segments] at whole
  exact nameable.quoteless c whole

theorem carries (nameable : Nameable text) : Carries text [] :=
  nameable.expressible.carries

theorem of_infix {part : Text} (nameable : Nameable text) (inside : part <:+: text) : Nameable part :=
  ⟨fun c member => nameable.quoteless c (inside.subset member), nameable.numberless.of_infix inside⟩

end Nameable

end SqlCompose
