import Mathlib
import SqlCompose.Proofs.TokenRewriting

/-!
# The slots of a composed text

A statement is put together from pieces, and what its placeholders are is wanted of the whole. Reading a text into tokens does not go piece by piece: a quote may close in the next piece or swallow it, and two pieces may form a schema token between them. The places for values do go piece by piece, as long as every quote is closed within its piece and no piece that may follow a number begins with a digit. `Slotted` describes such texts from left to right, whatever their tokens are; `Slotted.append` puts two of them together, and `Slotted.read` says that the scanner finds the same places.
-/

namespace SqlCompose

/-- A place for a value: a marker, or a placeholder with its number. -/
inductive Slot where
  | free
  | numbered (n : Nat)
  deriving DecidableEq, Repr

namespace Slot

def number? : Slot → Option Nat
  | free => none
  | numbered n => some n

def isFree : Slot → Bool
  | free => true
  | numbered _ => false

def renumber (number : Nat → Nat) : Slot → Slot
  | free => free
  | numbered n => numbered (number n)

end Slot

/-- The place for a value that a token is. -/
def Token.slot? : Token → Option Slot
  | marker => some .free
  | placeholder digits => some (.numbered (Text.numeralValue digits))
  | _ => none

/-- Neither a sign nor a quote. -/
def Token.isPlain (c : Char) : Bool :=
  !isSign c && !Quoted.isQuote c

theorem Token.isPlain_of_isDigit {c : Char} (digit : Text.isDigit c) : isPlain c = true := by
  simp [isPlain, not_isSign_of_isDigit digit, not_isQuote_of_isDigit digit]

theorem Token.not_isSign_of_isPlain {c : Char} (ordinary : isPlain c) : isSign c = false := by
  rw [isPlain, Bool.and_eq_true] at ordinary
  simpa using ordinary.1

theorem Token.not_isQuote_of_isPlain {c : Char} (ordinary : isPlain c) : Quoted.isQuote c = false := by
  rw [isPlain, Bool.and_eq_true] at ordinary
  simpa using ordinary.2

open Token

/-- A text whose quotes are all closed, and the places for values in it; in a firm text no marker stands right in front of a digit. -/
inductive Slotted (firm : Prop) : Text → List Slot → Prop
  | nil : Slotted firm [] []
  | quoted {quote : Char} (inner : Text) {rest : Text} {slots : List Slot} (isQuote : Quoted.isQuote quote = true)
      (others : Slotted firm rest slots) : Slotted firm (quote :: (Text.double quote inner ++ [quote]) ++ rest) slots
  | plain {c : Char} {rest : Text} {slots : List Slot} (ordinary : isPlain c = true) (others : Slotted firm rest slots) :
      Slotted firm (c :: rest) slots
  | dollar {rest : Text} {slots : List Slot} (stop : rest.BeginsOutside Text.isDigit) (others : Slotted firm rest slots) :
      Slotted firm ('$' :: rest) slots
  | marker {rest : Text} {slots : List Slot} (apart : firm → rest.BeginsOutside Text.isDigit)
      (others : Slotted firm rest slots) : Slotted firm ('?' :: rest) (.free :: slots)
  | placeholder {digits rest : Text} {slots : List Slot} (some : digits ≠ []) (all : ∀ c ∈ digits, Text.isDigit c)
      (stop : rest.BeginsOutside Text.isDigit) (others : Slotted firm rest slots) :
      Slotted firm ('$' :: (digits ++ rest)) (.numbered (Text.numeralValue digits) :: slots)

theorem Text.BeginsOutside.append {kind : Char → Bool} {left right : Text} (first : left.BeginsOutside kind)
    (second : right.BeginsOutside kind) : (left ++ right).BeginsOutside kind := by
  cases left with
  | nil => exact second
  | cons c left => exact .cons (first c (by simp))

theorem Text.BeginsOutside.append_of_ne_nil {kind : Char → Bool} {left : Text} (first : left.BeginsOutside kind)
    (some : left ≠ []) (right : Text) : (left ++ right).BeginsOutside kind := by
  cases left with
  | nil => exact absurd rfl some
  | cons c left => exact .cons (first c (by simp))

theorem Text.BeginsOutside.of_append {kind : Char → Bool} {left right : Text} (whole : (left ++ right).BeginsOutside kind) :
    left.BeginsOutside kind := by
  cases left with
  | nil => exact .nil
  | cons c left => exact .cons (whole c (by simp))

theorem Text.BeginsOutside.of_head {kind : Char → Bool} {left : Text} (first : left.head?.map kind = some false)
    (right : Text) : (left ++ right).BeginsOutside kind := by
  cases left with
  | nil => cases first
  | cons c left => exact .cons (Option.some.inj first)

namespace Slotted

variable {firm : Prop}

/-! ### Putting texts together -/

theorem append {left right : Text} {slots slots' : List Slot} (first : Slotted firm left slots)
    (second : Slotted firm right slots') (apart : right.BeginsOutside Text.isDigit) :
    Slotted firm (left ++ right) (slots ++ slots') := by
  induction first with
  | nil => exact second
  | quoted inner isQuote _ ih =>
    rw [List.append_assoc]
    exact .quoted inner isQuote ih
  | plain ordinary _ ih => exact .plain ordinary ih
  | dollar stop _ ih => exact .dollar (stop.append apart) ih
  | marker firmly _ ih => exact .marker (fun h => (firmly h).append apart) ih
  | placeholder some all stop _ ih =>
    rw [List.cons_append, List.append_assoc]
    exact .placeholder some all (stop.append apart) ih

theorem literal (run : Text) (ordinary : run.all isPlain = true) {rest : Text} {slots : List Slot}
    (others : Slotted firm rest slots) : Slotted firm (run ++ rest) slots := by
  induction run with
  | nil => exact others
  | cons c run ih =>
    rw [List.all_cons, Bool.and_eq_true] at ordinary
    exact .plain ordinary.1 (ih ordinary.2)

theorem of_plain {text : Text} (ordinary : text.all isPlain = true) : Slotted firm text [] := by
  have whole : Slotted firm (text ++ []) [] := literal text ordinary .nil
  rwa [List.append_nil] at whole

/-- Plain characters can stand behind anything if the first is no digit. -/
theorem behind (run : Text) (ordinary : run.all isPlain = true) (first : run.head?.map Text.isDigit = some false)
    {text : Text} {slots : List Slot} (slotted : Slotted firm text slots) : Slotted firm (text ++ run) slots := by
  have stop : (run ++ []).BeginsOutside Text.isDigit := .of_head first []
  rw [List.append_nil] at stop
  have whole := slotted.append (of_plain ordinary) stop
  rwa [List.append_nil] at whole

theorem join (separator : Text) (ordinary : separator.all isPlain = true)
    (first : separator.head?.map Text.isDigit = some false) {texts : List Text} {lists : List (List Slot)}
    (all : List.Forall₂ (Slotted firm) texts lists) : Slotted firm (Text.join separator texts) lists.flatten := by
  induction all with
  | nil => exact .nil
  | @cons text list texts lists here there ih =>
    rw [List.flatten_cons]
    cases there with
    | nil =>
      rw [Text.join, List.intercalate_singleton, List.flatten_nil, List.append_nil]
      exact here
    | cons next others =>
      rw [Text.join, List.intercalate_cons_cons, List.append_assoc]
      exact here.append (literal separator ordinary ih) (.of_head first _)

theorem quoted_alone {quote : Char} (isQuote : Quoted.isQuote quote = true) (inner : Text) :
    Slotted firm (quote :: (Text.double quote inner ++ [quote])) [] := by
  have whole : Slotted firm (quote :: (Text.double quote inner ++ [quote]) ++ []) [] := quoted inner isQuote .nil
  rwa [List.append_nil] at whole

theorem weaken {text : Text} {slots : List Slot} (slotted : Slotted firm text slots) : Slotted False text slots := by
  induction slotted with
  | nil => exact .nil
  | quoted inner isQuote _ ih => exact .quoted inner isQuote ih
  | plain ordinary _ ih => exact .plain ordinary ih
  | dollar stop _ ih => exact .dollar stop ih
  | marker _ _ ih => exact .marker False.elim ih
  | placeholder some all stop _ ih => exact .placeholder some all stop ih

/-! ### What the scanner finds -/

/-- No marker stands right in front of a digit. -/
def Firm : List Token → Prop
  | [] => True
  | .marker :: rest => (write rest).BeginsOutside Text.isDigit ∧ Firm rest
  | _ :: rest => Firm rest

theorem firm_plain {run : Text} {rest : List Token} : Firm (run.map .plain ++ rest) ↔ Firm rest := by
  induction run with
  | nil => rfl
  | cons c run ih => exact ih

/-- Every quote character of the text lies in a quoted segment. -/
def Balanced (text : Text) : Prop :=
  ∀ segment ∈ Quoted.segments text, segment.quoted = false → ∀ c ∈ segment.text, Quoted.isQuote c = false

/-- What is found in a text: its quotes are all closed, and it has the slots. -/
structure Found (firm : Prop) (text : Text) (slots : List Slot) : Prop where
  balanced : Balanced text
  slots_eq : (read text).filterMap slot? = slots
  firmly : firm → Firm (read text)

private theorem slots_plain (run : Text) : (run.map Token.plain).filterMap slot? = [] := by
  induction run with
  | nil => rfl
  | cons c run ih => exact ih

/-- Characters that are no quotes in front of a text: they are read with its first unquoted segment. -/
private theorem read_run {run : Text} (some : run ≠ []) (none : ∀ c ∈ run, Quoted.isQuote c = false) (rest : Text) :
    ∃ first after, read (run ++ rest) = ofUnquoted (run ++ first) ++ after ∧ read rest = ofUnquoted first ++ after ∧
      (∃ tail, rest = first ++ tail) ∧ (Balanced rest → Balanced (run ++ rest)) := by
  obtain ⟨first, after, whole, alone, tail⟩ := Quoted.segments_append_unquoted some none rest
  refine ⟨first, after.flatMap ofSegment, ?_, ?_, tail, ?_⟩
  · rw [read_eq, whole, List.flatMap_cons]
    rfl
  · rw [read_eq, alone, Quoted.outside]
    split
    · next empty =>
      rw [List.isEmpty_iff.mp empty]
      rfl
    · rfl
  · intro balanced segment member unquoted c inside
    rw [whole] at member
    rcases List.mem_cons.mp member with rfl | further
    · rcases List.mem_append.mp inside with front | back
      · exact none c front
      · refine balanced ⟨first, false⟩ ?_ rfl c back
        rw [alone, Quoted.outside, if_neg (by simpa using List.ne_nil_of_mem back)]
        simp
    · refine balanced segment ?_ unquoted c inside
      rw [alone, Quoted.outside]
      split
      · exact further
      · exact List.mem_cons_of_mem _ further

/-- A plain character is a token of its own, and opens no quote. -/
theorem read_plain {c : Char} (ordinary : isPlain c = true) (rest : Text) :
    read (c :: rest) = .plain c :: read rest ∧ (Balanced rest → Balanced (c :: rest)) := by
  obtain ⟨first, after, whole, alone, -, balanced⟩ :=
    @read_run [c] (by simp) (by simpa using not_isQuote_of_isPlain ordinary) rest
  refine ⟨?_, balanced⟩
  rw [alone]
  simpa [ofUnquoted_plain (not_isSign_of_isPlain ordinary)] using whole

theorem read_marker (rest : Text) : read ('?' :: rest) = .marker :: read rest ∧ (Balanced rest → Balanced ('?' :: rest)) := by
  obtain ⟨first, after, whole, alone, -, balanced⟩ := @read_run ['?'] (by simp) (by simp; decide) rest
  refine ⟨?_, balanced⟩
  rw [alone]
  simpa [ofUnquoted] using whole

namespace Found

theorem nil : Found firm [] [] :=
  ⟨by simp [Balanced, Quoted.segments, Quoted.scan, Quoted.outside], rfl, fun _ => trivial⟩

theorem quoted {quote : Char} {inner rest : Text} {slots : List Slot} (isQuote : Quoted.isQuote quote = true)
    (closed : Quoted.Closed quote rest) (others : Found firm rest slots) :
    Found firm (quote :: (Text.double quote inner ++ [quote]) ++ rest) slots := by
  have cut := Quoted.segments_quoted inner isQuote closed
  have tokens : read (quote :: (Text.double quote inner ++ [quote]) ++ rest) =
      .quoted (quote :: (Text.double quote inner ++ [quote])) :: read rest := by
    rw [read_eq, cut, List.flatMap_cons, read_eq]
    rfl
  refine ⟨?_, ?_, ?_⟩
  · intro segment member unquoted
    rw [cut] at member
    rcases List.mem_cons.mp member with rfl | further
    · cases unquoted
    · exact others.balanced segment further unquoted
  · rw [tokens]
    exact others.slots_eq
  · rw [tokens]
    exact others.firmly

theorem plain {c : Char} {rest : Text} {slots : List Slot} (ordinary : isPlain c = true) (others : Found firm rest slots) :
    Found firm (c :: rest) slots := by
  obtain ⟨tokens, balanced⟩ := read_plain ordinary rest
  refine ⟨balanced others.balanced, ?_, ?_⟩
  · rw [tokens]
    exact others.slots_eq
  · rw [tokens]
    exact others.firmly

theorem marker {rest : Text} {slots : List Slot} (apart : firm → rest.BeginsOutside Text.isDigit)
    (others : Found firm rest slots) : Found firm ('?' :: rest) (.free :: slots) := by
  obtain ⟨tokens, balanced⟩ := read_marker rest
  refine ⟨balanced others.balanced, ?_, ?_⟩
  · rw [tokens, List.filterMap_cons, others.slots_eq]
    rfl
  · intro h
    rw [tokens]
    refine ⟨?_, others.firmly h⟩
    rw [write_read]
    exact apart h

theorem placeholder {digits rest : Text} {slots : List Slot} (some : digits ≠ []) (all : ∀ c ∈ digits, Text.isDigit c)
    (stop : rest.BeginsOutside Text.isDigit) (others : Found firm rest slots) :
    Found firm ('$' :: (digits ++ rest)) (.numbered (Text.numeralValue digits) :: slots) := by
  obtain ⟨first, after, whole, alone, ⟨tail, pieces⟩, balanced⟩ :=
    @read_run ('$' :: digits) (by simp) (not_isQuote_of_mem_placeholder all) rest
  rw [pieces] at stop
  have tokens : read ('$' :: (digits ++ rest)) = .placeholder digits :: read rest := by
    rw [alone]
    simpa [ofUnquoted_placeholder some all stop.of_append] using whole
  refine ⟨balanced others.balanced, ?_, ?_⟩
  · rw [tokens, List.filterMap_cons, others.slots_eq]
    rfl
  · intro h
    rw [tokens]
    exact others.firmly h

/-- A dollar sign may begin a schema token with what follows it; there is no place for a value in one. -/
theorem dollar {rest : Text} {slots : List Slot} (stop : rest.BeginsOutside Text.isDigit) (others : Found firm rest slots) :
    Found firm ('$' :: rest) slots := by
  obtain ⟨first, after, whole, alone, ⟨tail, pieces⟩, balanced⟩ := @read_run ['$'] (by simp) (by simp; decide) rest
  have shape : ∃ (token : Token) (run : Text), slot? token = none ∧ (∀ tokens, Firm (token :: tokens) ↔ Firm tokens) ∧
      ∃ further, read ('$' :: rest) = token :: further ∧ read rest = run.map .plain ++ further := by
    cases begun : afterDollar? first with
    | none =>
      refine ⟨.plain '$', [], rfl, fun _ => Iff.rfl, read rest, ?_, rfl⟩
      rw [alone]
      simpa [ofUnquoted_dollar begun] using whole
    | some answer =>
      obtain ⟨token, taken⟩ := answer
      rcases afterDollar?_eq_some begun with ⟨digits, text, rfl, rfl, rfl, some, all, -⟩ |
        ⟨digits, text, rfl, rfl, rfl, all, outside, apart⟩
      · exfalso
        obtain ⟨d, digits, rfl⟩ := List.exists_cons_of_ne_nil some
        have digit := all d (by simp)
        rw [stop d (by simp [pieces])] at digit
        cases digit
      · have letters : ∀ c ∈ ("schema" : Text) ++ digits, isSign c = false := by
          intro c member
          rcases List.mem_append.mp member with letter | digit
          · have none : ("schema" : Text).all (fun c => !isSign c) = true := rfl
            simpa using List.all_eq_true.mp none c letter
          · exact not_isSign_of_isDigit (all c digit)
        refine ⟨.schema digits, ("schema" : Text) ++ digits, rfl, fun _ => Iff.rfl, ofUnquoted text ++ after, ?_, ?_⟩
        · rw [List.singleton_append, List.singleton_append, ofUnquoted_schema all outside apart] at whole
          exact whole
        · rw [alone, ← List.append_assoc, ofUnquoted_append_plain letters, List.append_assoc]
  obtain ⟨token, run, slotless, same, further, front, back⟩ := shape
  have slots_eq : further.filterMap slot? = slots := by
    rw [← others.slots_eq, back, List.filterMap_append, slots_plain, List.nil_append]
  refine ⟨balanced others.balanced, ?_, ?_⟩
  · rw [front, List.filterMap_cons_none slotless, slots_eq]
  · intro h
    have firmly := others.firmly h
    rw [back, firm_plain] at firmly
    rw [front]
    exact (same further).mpr firmly

end Found

private theorem closed_of_head_ne {quote : Char} {rest : Text} (ne : rest.head? ≠ some quote) : Quoted.Closed quote rest :=
  fun same => absurd same ne

/-- Two quoted texts in a row with one quote character are one. -/
private theorem double_double (quote : Char) (inner inner' rest : Text) :
    quote :: (Text.double quote inner ++ [quote]) ++ (quote :: (Text.double quote inner' ++ [quote]) ++ rest) =
      quote :: (Text.double quote (inner ++ quote :: inner') ++ [quote]) ++ rest := by
  simp [Text.double]

theorem found {text : Text} {slots : List Slot} (slotted : Slotted firm text slots) : Found firm text slots := by
  -- A closing quote in front of the text may turn out to be half of a doubled one, so that case is carried along.
  suffices both : Found firm text slots ∧ ∀ quote inner, Quoted.isQuote quote = true →
      Found firm (quote :: (Text.double quote inner ++ [quote]) ++ text) slots from both.1
  have behind : ∀ {text : Text} {slots : List Slot}, (∀ c ∈ text.head?, Quoted.isQuote c = false) → Found firm text slots →
      Found firm text slots ∧ ∀ quote inner, Quoted.isQuote quote = true →
        Found firm (quote :: (Text.double quote inner ++ [quote]) ++ text) slots := by
    intro text slots quoteless found
    refine ⟨found, fun quote inner isQuote => .quoted isQuote (closed_of_head_ne ?_) found⟩
    intro head
    rw [quoteless quote head] at isQuote
    cases isQuote
  induction slotted with
  | nil => exact behind (by simp) .nil
  | @quoted quote inner rest slots isQuote _ ih =>
    refine ⟨ih.2 quote inner isQuote, ?_⟩
    intro quote' inner' isQuote'
    by_cases same : quote' = quote
    · subst same
      rw [double_double]
      exact ih.2 quote' _ isQuote
    · refine .quoted isQuote' (closed_of_head_ne ?_) (ih.2 quote inner isQuote)
      simpa using fun h : quote = quote' => same h.symm
  | plain ordinary _ ih =>
    refine behind ?_ (.plain ordinary ih.1)
    simpa using not_isQuote_of_isPlain ordinary
  | dollar stop _ ih => exact behind (by simp; decide) (.dollar stop ih.1)
  | marker apart _ ih => exact behind (by simp; decide) (.marker apart ih.1)
  | placeholder some all stop _ ih => exact behind (by simp; decide) (.placeholder some all stop ih.1)

end Slotted

end SqlCompose
