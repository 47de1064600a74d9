import Mathlib
import SqlCompose.Proofs.ConditionMeaning
import SqlCompose.Proofs.EmbeddedNumbers

/-!
# Markers are numbered and unnumbered

Numbering the markers of a text puts placeholders in their places, and unnumbering a fragment puts markers in the places of its placeholders. Each undoes the other (`bound_and_unbound`): if no marker stands in front of a digit, the numbered text is read as it was written, so the numbers that are found in it are those that were given out, and unnumbering it gives the text back.
-/

namespace SqlCompose

namespace Token

variable {tokens : List Token}

/-- No marker stands right in front of a digit. -/
def MarkersApart (tokens : List Token) : Prop :=
  ∀ before after, tokens = before ++ marker :: after → (write after).BeginsOutside Text.isDigit

theorem markersApart_iff : MarkersApart tokens ↔ Slotted.Firm tokens := by
  induction tokens with
  | nil => simp [MarkersApart, Slotted.Firm]
  | cons token rest ih =>
    have further : MarkersApart (token :: rest) ↔ (token = marker → (write rest).BeginsOutside Text.isDigit) ∧ MarkersApart rest := by
      constructor
      · intro apart
        exact ⟨fun same => apart [] rest (by rw [same]; rfl), fun before after pieces => apart (token :: before) after (by rw [pieces]; rfl)⟩
      · rintro ⟨here, there⟩ (_ | ⟨first, before⟩) after pieces
        · obtain ⟨same, rfl⟩ := List.cons.inj pieces
          exact here same
        · exact there before after (List.cons.inj pieces).2
    rw [further, ih]
    cases token <;> simp [Slotted.Firm]

-- Without this instance all characters there are would be gone through.
instance (kind : Char → Bool) (text : Text) : Decidable (text.BeginsOutside kind) :=
  decidable_of_iff (text.head?.all fun c => !kind c) (by cases text <;> simp [Text.BeginsOutside])

instance decidableFirm : (tokens : List Token) → Decidable (Slotted.Firm tokens)
  | [] => .isTrue trivial
  | .marker :: rest =>
    have := decidableFirm rest
    inferInstanceAs (Decidable ((write rest).BeginsOutside Text.isDigit ∧ Slotted.Firm rest))
  | .quoted _ :: rest | .placeholder _ :: rest | .schema _ :: rest | .plain _ :: rest => decidableFirm rest

instance (tokens : List Token) : Decidable (MarkersApart tokens) :=
  decidable_of_iff _ markersApart_iff.symm

/-- A text without placeholders. -/
def Unnumbered (tokens : List Token) : Prop :=
  ∀ digits, placeholder digits ∉ tokens

theorem Unnumbered.tail {token : Token} (unnumbered : Unnumbered (token :: tokens)) : Unnumbered tokens :=
  fun digits member => unnumbered digits (List.mem_cons_of_mem token member)

theorem unnumbered_iff : Unnumbered tokens ↔ tokens.filterMap index? = [] := by
  constructor
  · intro unnumbered
    refine List.filterMap_eq_nil_iff.mpr fun token member => ?_
    cases token with
    | placeholder digits => exact absurd member (unnumbered digits)
    | _ => rfl
  · intro none digits member
    have some := List.filterMap_eq_nil_iff.mp none _ member
    cases some

/-- Markers that have become placeholders can become markers again. -/
theorem map_unplaced_bound (unnumbered : Unnumbered tokens) (start : Nat) : (bound start tokens).map unplaced = tokens := by
  induction tokens generalizing start with
  | nil => rfl
  | cons token rest ih =>
    cases token with
    | placeholder digits => exact absurd List.mem_cons_self (unnumbered digits)
    | marker => rw [bound, List.map_cons, ih unnumbered.tail, unplaced]
    | _ => exact congrArg _ (ih unnumbered.tail start)

theorem filterMap_index?_bound (unnumbered : Unnumbered tokens) (start : Nat) :
    (bound start tokens).filterMap index? = List.range' start (tokens.countP isMarker) := by
  induction tokens generalizing start with
  | nil => rfl
  | cons token rest ih =>
    cases token with
    | placeholder digits => exact absurd List.mem_cons_self (unnumbered digits)
    | marker =>
      have number : index? (placeholder (Text.ofNat start)) = some start := by rw [index?, Text.numeralValue_ofNat]
      rw [bound, List.filterMap_cons_some number, ih unnumbered.tail, List.countP_cons_of_pos rfl, List.range'_succ]
    | _ => exact ih unnumbered.tail start

theorem countP_isMarker_bound (start : Nat) (tokens : List Token) : (bound start tokens).countP isMarker = 0 := by
  induction tokens generalizing start with
  | nil => rfl
  | cons token rest ih =>
    cases token with
    | marker => exact ih (start + 1)
    | _ => exact ih start

/-- The numerals of numbered markers are those of the numbers that are given out. -/
theorem exists_of_mem_bound (unnumbered : Unnumbered tokens) {start : Nat} {digits : Text} (member : placeholder digits ∈ bound start tokens) :
    ∃ n < start + tokens.countP isMarker, digits = Text.ofNat n := by
  induction tokens generalizing start with
  | nil => cases member
  | cons token rest ih =>
    cases token with
    | placeholder digits => exact absurd List.mem_cons_self (unnumbered digits)
    | marker =>
      have count : (marker :: rest).countP isMarker = rest.countP isMarker + 1 := List.countP_cons_of_pos rfl
      rcases List.mem_cons.mp member with same | further
      · exact ⟨start, by omega, Token.placeholder.inj same⟩
      · obtain ⟨n, below, same⟩ := ih unnumbered.tail further
        exact ⟨n, by omega, same⟩
    | _ =>
      rcases List.mem_cons.mp member with same | further
      · cases same
      · exact ih unnumbered.tail further

end Token

open Token

section Numbering

variable {text : Text} (unnumbered : Unnumbered (read text)) (apart : MarkersApart (read text)) (start : Nat)
include unnumbered apart

theorem placeholders_boundMarkers : placeholders (boundMarkers text start).1 = List.range' start (countMarkers text) := by
  have tokens : read (boundMarkers text start).1 = bound start (read text) := read_bind_of_firm (markersApart_iff.mp apart) start
  rw [placeholders, tokens, filterMap_index?_bound unnumbered, countMarkers]

/-- If no number has too many digits, the numbers that were given out are read again. -/
theorem readPlaceholders_boundMarkers (short : start + countMarkers text ≤ 10 ^ Numeral.digitLimit) :
    readPlaceholders (boundMarkers text start).1 = .ok (List.range' start (countMarkers text)) := by
  have tokens : read (boundMarkers text start).1 = bound start (read text) := read_bind_of_firm (markersApart_iff.mp apart) start
  have readable : Readable (boundMarkers text start).1 := by
    intro digits member
    rw [tokens] at member
    obtain ⟨n, below, rfl⟩ := exists_of_mem_bound unnumbered member
    exact Text.length_ofNat_le (by decide) (below.trans_le short)
  rw [readPlaceholders_of_readable readable, placeholders_boundMarkers unnumbered apart]

/-- Numbered markers that become markers again give the text back. -/
theorem flatMap_unnumbered_boundMarkers : (read (boundMarkers text start).1).flatMap Token.unnumbered = text := by
  have tokens : read (boundMarkers text start).1 = bound start (read text) := read_bind_of_firm (markersApart_iff.mp apart) start
  rw [tokens, ← write_unplaced, map_unplaced_bound unnumbered, write_read]

end Numbering

theorem countMarkers_boundMarkers {text : Text} (apart : MarkersApart (read text)) (start : Nat) : countMarkers (boundMarkers text start).1 = 0 := by
  have tokens : read (boundMarkers text start).1 = bound start (read text) := read_bind_of_firm (markersApart_iff.mp apart) start
  rw [countMarkers, tokens, countP_isMarker_bound]

namespace Fragment

/-- The numbers of a fragment are those of its values, in order. -/
def InOrder (fragment : Fragment) : Prop :=
  fragment.indices = List.range' 1 fragment.indices.length ∧ fragment.indices.length = fragment.values.length

theorem inOrder_iff {fragment : Fragment} : fragment.InOrder ↔ fragment.indices = List.range' 1 fragment.values.length := by
  constructor
  · rintro ⟨inRow, length⟩
    rwa [length] at inRow
  · intro inRow
    have length : fragment.indices.length = fragment.values.length := by rw [inRow, List.length_range']
    exact ⟨by rwa [length], length⟩

/-- The numerals of a fragment are read before its numbers are compared with its values. -/
theorem unbind_cases (fragment : Fragment) :
    (¬ Readable fragment.text.content ∧ ∃ digits, fragment.unbind = .error (.numeralTooLong digits)) ∨
    (Readable fragment.text.content ∧ ¬ fragment.InOrder ∧ fragment.unbind = .error (fragment.misfit fragment.indices.length)) ∨
    (Readable fragment.text.content ∧ fragment.InOrder ∧ fragment.unbind = .ok ((read fragment.text.content).flatMap Token.unnumbered)) := by
  by_cases readable : Readable fragment.text.content
  · have found : readPlaceholders fragment.text.content = .ok fragment.indices := readPlaceholders_of_readable readable
    by_cases inOrder : fragment.InOrder
    · rw [inOrder_iff.mp inOrder] at found
      exact .inr (.inr ⟨readable, inOrder, unbind_of_row found⟩)
    · have other : fragment.indices ≠ (List.range fragment.values.length).map (· + 1) := by
        rw [← range'_one_eq_map]
        exact mt inOrder_iff.mpr inOrder
      refine .inr (.inl ⟨readable, inOrder, ?_⟩)
      rw [unbind, found, Outcome.bind_ok, if_neg other]
      rfl
  · obtain ⟨digits, failed, -⟩ := readPlaceholders_of_not_readable readable
    refine .inl ⟨readable, digits, ?_⟩
    rw [unbind, failed]
    rfl

/-- Numbering the markers of a text without placeholders from a start, none of its markers in front of a digit and no number with too many digits: the next index is the start and as many more as there are markers, no marker is left, and the numbers that are read are those from the start on. Numbered from one, and with as many values, the text can be unnumbered again, and that gives the text back.

Unnumbering a fragment fails if one of its numerals has too many digits to be read, and else if its numbers are not one, two and so on, one for each value; otherwise it succeeds. -/
theorem bound_and_unbound :
    (∀ text, Unnumbered (read text) → MarkersApart (read text) →
      (∀ start : Nat, 1 ≤ start → start + countMarkers text ≤ 10 ^ Numeral.digitLimit →
        ∃ bound, bindMarkers text start = .ok (bound, start + countMarkers text) ∧
          countMarkers bound = 0 ∧ readPlaceholders bound = .ok (List.range' start (countMarkers text))) ∧
      ∀ values : List Value, values.length = countMarkers text → 1 + countMarkers text ≤ 10 ^ Numeral.digitLimit →
        ∃ bound next, bindMarkers text 1 = .ok (bound, next) ∧ unbind ⟨.plain bound, values⟩ = .ok text) ∧
    ∀ fragment : Fragment,
      ((∃ digits, fragment.unbind = .error (.numeralTooLong digits)) ↔ ¬ Readable fragment.text.content) ∧
      ((∃ text found given, fragment.unbind = .error (.mismatch text found given)) ↔ Readable fragment.text.content ∧ ¬ fragment.InOrder) ∧
      ((∃ text, fragment.unbind = .ok text) ↔ Readable fragment.text.content ∧ fragment.InOrder) := by
  refine ⟨fun text unnumbered apart => ⟨fun start _ short => ?_, fun values counted short => ?_⟩, fun fragment => ?_⟩
  · refine ⟨(boundMarkers text start).1, bindMarkers_of_bound (Int.natCast_nonneg start) (by exact_mod_cast short), ?_, ?_⟩
    · exact countMarkers_boundMarkers apart start
    · exact readPlaceholders_boundMarkers unnumbered apart start short
  · refine ⟨_, _, bindMarkers_of_bound (by decide) (by exact_mod_cast short), ?_⟩
    have found := readPlaceholders_boundMarkers unnumbered apart 1 short
    rw [← counted] at found
    have unbound := @unbind_of_row ⟨.plain (boundMarkers text 1).1, values⟩ found
    exact unbound.trans (congrArg Except.ok (flatMap_unnumbered_boundMarkers unnumbered apart 1))
  · rcases unbind_cases fragment with ⟨unreadable, digits, run⟩ | ⟨readable, inOrder, run⟩ | ⟨readable, inOrder, run⟩
    · simp [run, unreadable]
    · simp [run, readable, inOrder, misfit]
    · simp [run, readable, inOrder]

/-- Markers behind a cast, right before a letter and beside a quoted and a stray quote. -/
theorem bound_and_unbound_stray_quote :
    Unnumbered (read "a::? = '? $1' || ?b ' $x") ∧ MarkersApart (read "a::? = '? $1' || ?b ' $x") ∧ 1 ≤ 9 ∧
    2 = countMarkers "a::? = '? $1' || ?b ' $x" ∧ 9 + 2 ≤ 10 ^ Numeral.digitLimit ∧
    (∃ bound, bindMarkers "a::? = '? $1' || ?b ' $x" 9 = .ok (bound, 11) ∧ readPlaceholders bound = .ok [9, 10]) ∧
    unbind ⟨.plain "a::$1 = '? $1' || $2b ' $x", [.int 5, .int 6]⟩ = .ok "a::? = '? $1' || ?b ' $x" := by
  have unnumbered : Unnumbered (read "a::? = '? $1' || ?b ' $x") := unnumbered_iff.mpr (by decide +kernel)
  have apart : MarkersApart (read "a::? = '? $1' || ?b ' $x") := by decide +kernel
  have count : countMarkers "a::? = '? $1' || ?b ' $x" = 2 := by decide +kernel
  have few : 9 + 2 ≤ 10 ^ Numeral.digitLimit := by decide +kernel
  have fewer : 1 + 2 ≤ 10 ^ Numeral.digitLimit := by decide +kernel
  have written : (boundMarkers "a::? = '? $1' || ?b ' $x" 1).1 = "a::$1 = '? $1' || $2b ' $x" := by decide +kernel
  obtain ⟨numbered, back⟩ := bound_and_unbound.1 _ unnumbered apart
  have from9 := numbered 9 (by decide)
  rw [count] at from9
  obtain ⟨bound, run, -, found⟩ := from9 few
  obtain ⟨again, next, once, round⟩ := back [.int 5, .int 6] count.symm (by rwa [count])
  obtain rfl : "a::$1 = '? $1' || $2b ' $x" = again := by
    rw [← written, (bindMarkers_eq_ok.mp once).2]
  exact ⟨unnumbered, apart, by decide, count.symm, few, ⟨bound, run, found⟩, round⟩

/-! ### Numerals that are too long -/

private theorem readPlaceholders_of_long {digits : Text} (all : ∀ c ∈ digits, Text.isDigit c) (long : Numeral.digitLimit < digits.length) :
    readPlaceholders ('$' :: digits) = .error (.numeralTooLong digits.length) := by
  have some : digits ≠ [] := List.ne_nil_of_length_pos (by omega)
  have checked : checkNumerals ('$' :: digits) = .error (.numeralTooLong digits.length) := by
    rw [checkNumerals, read_placeholder some all]
    change (Except.map _ (Numeral.read _) >>= fun _ => _) = _
    rw [Numeral.read, if_neg (by omega)]
    rfl
  rw [readPlaceholders, checked]
  rfl

private theorem unbind_nines {count : Nat} (many : Numeral.digitLimit < count) :
    placeholders ('$' :: List.replicate count '9') ≠ [] ∧
    unbind ⟨.plain ('$' :: List.replicate count '9'), []⟩ = .error (.numeralTooLong count) := by
  have nines : ∀ c ∈ List.replicate count '9', Text.isDigit c := by
    intro c member
    rw [List.eq_of_mem_replicate member]
    decide
  have length : (List.replicate count '9').length = count := List.length_replicate
  have some : List.replicate count '9' ≠ [] := List.ne_nil_of_length_pos (by omega)
  refine ⟨?_, ?_⟩
  · rw [placeholders, read_placeholder some nines]
    exact List.cons_ne_nil _ _
  · rw [unbind, Wording.content_plain, readPlaceholders_of_long nines (by omega), length]
    rfl

/-- A placeholder without a value is no mismatch if its numeral has too many digits; and a marker is not numbered if its number has too many digits. -/
theorem unbind_refuses_long_numeral :
    placeholders ('$' :: List.replicate 4301 '9') ≠ [] ∧
    unbind ⟨.plain ('$' :: List.replicate 4301 '9'), []⟩ = .error (.numeralTooLong 4301) ∧
    bindMarkers "?" (10 ^ 4300) = .error .numberTooLong := by
  have nines := unbind_nines (show Numeral.digitLimit < 4301 from Nat.lt_succ_self 4300)
  have one : countMarkers "?" = 1 := by decide +kernel
  have beyond : (10 : Int) ^ Numeral.digitLimit < 10 ^ 4300 + (1 : Nat) := by
    rw [Numeral.digitLimit]
    omega
  refine ⟨nines.1, nines.2, ?_⟩
  rw [bindMarkers, one, check_numbersFrom_of_beyond (by decide) beyond]
  rfl

end Fragment

end SqlCompose
