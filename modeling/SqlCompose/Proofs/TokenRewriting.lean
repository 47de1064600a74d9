import Mathlib
import SqlCompose.Proofs.QuoteStructure
import SqlCompose.Proofs.TokenReading

/-!
# Rewriting tokens

Numbering, renumbering and unnumbering a text put placeholders in the place of other placeholders, or of markers, or the other way round, and leave every other token alone. Such an exchange can be read back: the new text has the new tokens (`read_write_exchanged`) and the old quoted segments (`segments_write_exchanged`), wherever the tokens stand and whatever stands between them. The one thing that has to be asked for is that a marker which becomes a placeholder is not followed by a digit.
-/

namespace SqlCompose

theorem Text.numeralValue_noughts (n : Nat) (digits : Text) :
    numeralValue (List.replicate n '0' ++ digits) = numeralValue digits := by
  induction n with
  | zero => rfl
  | succ n ih => exact ih

theorem Text.digitValue?_lt {c : Char} {value : Nat} (digit : digitValue? c = some value) : value < 10 := by
  unfold digitValue? at digit
  split at digit
  · split at digit
    · next ascii =>
      have bound : c.toNat ≤ 57 := by
        simp only [Char.isDigit, Bool.and_eq_true, decide_eq_true_eq] at ascii
        exact ascii.2
      have same := Option.some.inj digit
      omega
    · cases digit
  · obtain ⟨nought, found, same⟩ := Option.map_eq_some_iff.mp digit
    have near := List.find?_some found
    simp only [Bool.and_eq_true, decide_eq_true_eq] at near
    omega

/-- A numeral stands for less than the power of ten that has one digit more. -/
theorem Text.numeralValue_lt (digits : Text) : numeralValue digits < 10 ^ digits.length := by
  induction digits using List.reverseRecOn with
  | nil => decide
  | append_singleton digits c ih =>
    have last : (digitValue? c).getD 0 < 10 := by
      cases digit : digitValue? c with
      | none => decide
      | some value => exact digitValue?_lt digit
    have step : numeralValue (digits ++ [c]) = 10 * numeralValue digits + (digitValue? c).getD 0 := by
      simp [numeralValue]
    rw [step, List.length_append, List.length_singleton, Nat.pow_succ]
    omega

theorem Text.length_ofNat_le {n k : Nat} (positive : 0 < k) (small : n < 10 ^ k) : (ofNat n).length ≤ k :=
  (Nat.length_toDigits_le_iff (by decide) positive).mpr small

namespace Token

/-- Tokens and what they are exchanged for. -/
inductive Exchanged : List Token → List Token → Prop
  | nil : Exchanged [] []
  | kept (token : Token) {rest rest' : List Token} (others : Exchanged rest rest') :
      Exchanged (token :: rest) (token :: rest')
  | renumbered (digits : Text) {digits' : Text} {rest rest' : List Token} (some : digits' ≠ [])
      (all : ∀ c ∈ digits', Text.isDigit c) (others : Exchanged rest rest') :
      Exchanged (placeholder digits :: rest) (placeholder digits' :: rest')
  | bound {digits' : Text} {rest rest' : List Token} (some : digits' ≠ []) (all : ∀ c ∈ digits', Text.isDigit c)
      (apart : (write rest).BeginsOutside Text.isDigit) (others : Exchanged rest rest') :
      Exchanged (marker :: rest) (placeholder digits' :: rest')
  | unbound (digits : Text) {rest rest' : List Token} (others : Exchanged rest rest') :
      Exchanged (placeholder digits :: rest) (marker :: rest')

namespace Exchanged

/-- An exchange of a list put together is an exchange of its parts. -/
theorem split {left right tokens : List Token} (exchanged : Exchanged (left ++ right) tokens) :
    ∃ left' right', tokens = left' ++ right' ∧ Exchanged left left' ∧ Exchanged right right' := by
  induction left generalizing tokens with
  | nil => exact ⟨[], tokens, rfl, .nil, exchanged⟩
  | cons token left ih =>
    rw [List.cons_append] at exchanged
    cases exchanged with
    | kept _ others =>
      obtain ⟨left', right', rfl, first, second⟩ := ih others
      exact ⟨_ :: left', right', rfl, .kept token first, second⟩
    | renumbered digits some all others =>
      obtain ⟨left', right', rfl, first, second⟩ := ih others
      exact ⟨_ :: left', right', rfl, .renumbered digits some all first, second⟩
    | bound some all apart others =>
      obtain ⟨left', right', rfl, first, second⟩ := ih others
      have near : (write left).BeginsOutside Text.isDigit := by
        intro c head
        refine apart c ?_
        rw [write_append]
        exact List.mem_head?_append_of_mem_head? head
      exact ⟨_ :: left', right', rfl, .bound some all near first, second⟩
    | unbound digits others =>
      obtain ⟨left', right', rfl, first, second⟩ := ih others
      exact ⟨_ :: left', right', rfl, .unbound digits first, second⟩

private theorem takeWhile_append_congr {kind : Char → Bool} (left : Text) {right right' : Text}
    (same : right.takeWhile kind = right'.takeWhile kind) :
    (left ++ right).takeWhile kind = (left ++ right').takeWhile kind := by
  induction left with
  | nil => exact same
  | cons c left ih =>
    rw [List.cons_append, List.cons_append, List.takeWhile_cons, List.takeWhile_cons, ih]

/-- An exchange leaves the text up to the next marker or dollar sign as it is. -/
theorem plainRun_eq {tokens tokens' : List Token} (exchanged : Exchanged tokens tokens') :
    plainRun (write tokens) = plainRun (write tokens') := by
  have marked : ∀ rest : Text, plainRun (source marker ++ rest) = [] := fun rest => plainRun_sign (by decide)
  have placed : ∀ digits rest : Text, plainRun (source (placeholder digits) ++ rest) = [] := fun digits rest =>
    plainRun_sign (by decide)
  cases exchanged with
  | nil => rfl
  | kept token others =>
    rw [write_cons, write_cons]
    exact takeWhile_append_congr _ (plainRun_eq others)
  | renumbered digits _ _ _ => rw [write_cons, write_cons, placed, placed]
  | bound _ _ _ _ => rw [write_cons, write_cons, marked, placed]
  | unbound digits _ => rw [write_cons, write_cons, marked, placed]

theorem beginsOutside {kind : Char → Bool} (signs : ∀ c, isSign c → kind c = false) {tokens tokens' : List Token}
    (exchanged : Exchanged tokens tokens') (outside : (write tokens).BeginsOutside kind) :
    (write tokens').BeginsOutside kind := by
  refine beginsOutside_of_plainRun signs ?_
  rw [← exchanged.plainRun_eq]
  exact plainRun_beginsOutside outside

end Exchanged

/-- What an unquoted text reads as after an exchange is what was put there. -/
theorem Reads.exchange {text : Text} {tokens tokens' : List Token} (reads : Reads text tokens)
    (exchanged : Exchanged tokens tokens') : Reads (write tokens') tokens' := by
  induction reads generalizing tokens' with
  | nil =>
    cases exchanged
    exact .nil
  | @marker rest tokens others ih =>
    cases exchanged with
    | kept _ further =>
      rw [write_cons]
      exact .marker (ih further)
    | bound some all apart further =>
      rw [write_cons]
      exact .placeholder some all (further.beginsOutside (fun _ => not_isDigit_of_isSign) apart) (ih further)
  | @placeholder digits rest tokens some all stop others ih =>
    have apart : (write tokens).BeginsOutside Text.isDigit := by
      rw [others.write_eq]
      exact stop
    cases exchanged with
    | kept _ further =>
      rw [write_cons]
      exact .placeholder some all (further.beginsOutside (fun _ => not_isDigit_of_isSign) apart) (ih further)
    | renumbered _ some' all' further =>
      rw [write_cons]
      exact .placeholder some' all' (further.beginsOutside (fun _ => not_isDigit_of_isSign) apart) (ih further)
    | unbound _ further =>
      rw [write_cons]
      exact .marker (ih further)
  | @schema digits rest tokens all stop apart others ih =>
    rw [← others.write_eq] at stop apart
    cases exchanged with
    | kept _ further =>
      rw [write_cons, source_schema, List.cons_append, List.append_assoc]
      exact .schema all (further.beginsOutside (fun _ => not_isDigit_of_isSign) stop)
        (further.beginsOutside (fun _ => not_isWord_of_isSign) apart) (ih further)
  | @dollar rest tokens nothing others ih =>
    cases exchanged with
    | kept _ further =>
      rw [write_cons, source_plain, List.singleton_append]
      refine .dollar ?_ (ih further)
      -- The dollar sign sees no difference: what it looks at ends before the first exchanged token.
      rw [← afterDollar?_plainRun, ← further.plainRun_eq, others.write_eq, afterDollar?_plainRun]
      exact nothing
  | @plain c rest tokens ordinary others ih =>
    cases exchanged with
    | kept _ further =>
      rw [write_cons]
      exact .plain ordinary (ih further)

/-! ### Quotes -/

theorem not_isQuote_of_isDigit {c : Char} (digit : Text.isDigit c) : Quoted.isQuote c = false := by
  by_contra quote
  have one : (c = '\'' ∨ c = '"') ∨ c = '\x60' := by simpa only [Bool.not_eq_false, Quoted.isQuote, Bool.or_eq_true, decide_eq_true_eq] using quote
  rcases one with (rfl | rfl) | rfl <;> revert digit <;> decide

theorem not_isQuote_of_mem_placeholder {digits : Text} (all : ∀ c ∈ digits, Text.isDigit c) :
    ∀ c ∈ source (placeholder digits), Quoted.isQuote c = false := by
  intro c member
  rcases List.mem_cons.mp member with rfl | digit
  · decide
  · exact not_isQuote_of_isDigit (all c digit)

/-- The placeholders among tokens are numerals, as those of every text that was read are. -/
def Numerals (tokens : List Token) : Prop :=
  ∀ digits, placeholder digits ∈ tokens → digits ≠ [] ∧ ∀ c ∈ digits, Text.isDigit c

theorem Reads.numerals {text : Text} {tokens : List Token} (reads : Reads text tokens) : Numerals tokens := by
  intro digits member
  induction reads with
  | nil => cases member
  | placeholder some all _ _ ih =>
    rcases List.mem_cons.mp member with same | further
    · obtain rfl := Token.placeholder.inj same
      exact ⟨some, all⟩
    · exact ih further
  | marker _ ih | schema _ _ _ _ ih | dollar _ _ ih | plain _ _ ih =>
    rcases List.mem_cons.mp member with same | further
    · cases same
    · exact ih further

theorem Numerals.tail {token : Token} {rest : List Token} (numerals : Numerals (token :: rest)) : Numerals rest :=
  fun digits member => numerals digits (List.mem_cons_of_mem token member)

theorem Exchanged.sameQuotes {tokens tokens' : List Token} (numerals : Numerals tokens)
    (exchanged : Exchanged tokens tokens') : Quoted.SameQuotes (write tokens) (write tokens') := by
  have mark : ∀ c ∈ source marker, Quoted.isQuote c = false := by
    intro c member
    rw [List.mem_singleton.mp member]
    decide
  induction exchanged with
  | nil => exact .refl _
  | kept token _ ih =>
    rw [write_cons, write_cons]
    exact (Quoted.SameQuotes.refl _).append (ih numerals.tail)
  | @renumbered digits digits' _ _ _ all _ ih =>
    rw [write_cons, write_cons]
    refine Quoted.SameQuotes.append ?_ (ih numerals.tail)
    exact .of_no_quotes (not_isQuote_of_mem_placeholder (numerals digits (by simp)).2) (not_isQuote_of_mem_placeholder all)
      (by simp)
  | @bound digits' _ _ _ all _ _ ih =>
    rw [write_cons, write_cons]
    refine Quoted.SameQuotes.append ?_ (ih numerals.tail)
    exact .of_no_quotes mark (not_isQuote_of_mem_placeholder all) (by simp)
  | unbound digits _ ih =>
    rw [write_cons, write_cons]
    refine Quoted.SameQuotes.append ?_ (ih numerals.tail)
    exact .of_no_quotes (not_isQuote_of_mem_placeholder (numerals digits (by simp)).2) mark (by simp)

/-! ### Whole texts -/

/-- The tokens of one segment. -/
def ofSegment (segment : Segment) : List Token :=
  if segment.quoted then [quoted segment.text] else ofUnquoted segment.text

theorem read_eq (text : Text) : read text = (Quoted.segments text).flatMap ofSegment := rfl

theorem write_ofSegment (segment : Segment) : write (ofSegment segment) = segment.text := by
  unfold ofSegment
  split
  · rw [write_cons, source_quoted, write_nil, List.append_nil]
  · exact (reads_ofUnquoted segment.text).write_eq

private theorem write_flatMap_ofSegment (pieces : List Segment) : write (pieces.flatMap ofSegment) = Quoted.whole pieces := by
  induction pieces with
  | nil => rfl
  | cons piece rest ih => rw [List.flatMap_cons, write_append, write_ofSegment, ih, Quoted.whole_cons]

theorem write_read (text : Text) : write (read text) = text := by
  rw [read_eq, write_flatMap_ofSegment, Quoted.whole_segments]

private theorem numerals_ofSegment (segment : Segment) : Numerals (ofSegment segment) := by
  unfold ofSegment
  split
  · intro digits member
    simp at member
  · exact (reads_ofUnquoted segment.text).numerals

theorem numerals_read (text : Text) : Numerals (read text) := by
  intro digits member
  rw [read_eq] at member
  obtain ⟨segment, _, inside⟩ := List.mem_flatMap.mp member
  exact numerals_ofSegment segment digits inside

/-- A segment and what becomes of it when some tokens in unquoted text are exchanged. -/
def Reworded (segment segment' : Segment) : Prop :=
  segment.quoted = segment'.quoted ∧ (segment.quoted → segment = segment')

private theorem exchange_segment {segment : Segment} {tokens : List Token} (exchanged : Exchanged (ofSegment segment) tokens)
    (formed : ∀ inside, segment = ⟨inside, true⟩ → ∃ quote inner, inside = quote :: (Text.double quote inner ++ [quote])) :
    ∃ segment', ofSegment segment' = tokens ∧ write tokens = segment'.text ∧ Reworded segment segment' ∧
      Quoted.Recut segment segment' := by
  obtain ⟨inside, isQuoted⟩ := segment
  cases isQuoted with
  | true =>
    have same : tokens = ofSegment ⟨inside, true⟩ := by
      change Exchanged [quoted inside] tokens at exchanged
      cases exchanged with
      | kept _ others =>
        cases others
        rfl
    obtain ⟨quote, inner, rfl⟩ := formed inside rfl
    exact ⟨_, same.symm, by rw [same, write_ofSegment], ⟨rfl, fun _ => rfl⟩, .quoted quote (.refl inner)⟩
  | false =>
    have reads := (reads_ofUnquoted inside).exchange exchanged
    have same := exchanged.sameQuotes (reads_ofUnquoted inside).numerals
    rw [(reads_ofUnquoted inside).write_eq] at same
    refine ⟨⟨write tokens, false⟩, reads.ofUnquoted_eq, rfl, ⟨rfl, ?_⟩, .unquoted same⟩
    intro quoted
    cases quoted

private theorem exchange_segments {pieces : List Segment} {tokens : List Token}
    (exchanged : Exchanged (pieces.flatMap ofSegment) tokens)
    (formed : ∀ inside, ⟨inside, true⟩ ∈ pieces → ∃ quote inner, inside = quote :: (Text.double quote inner ++ [quote])) :
    ∃ pieces', pieces'.flatMap ofSegment = tokens ∧ Quoted.whole pieces' = write tokens ∧
      List.Forall₂ Reworded pieces pieces' ∧ List.Forall₂ Quoted.Recut pieces pieces' := by
  induction pieces generalizing tokens with
  | nil =>
    cases exchanged
    exact ⟨[], rfl, rfl, .nil, .nil⟩
  | cons piece pieces ih =>
    rw [List.flatMap_cons] at exchanged
    obtain ⟨first, others, rfl, here, there⟩ := exchanged.split
    obtain ⟨piece', read, written, reworded, recut⟩ := exchange_segment here fun inside same =>
      formed inside (by simp [same])
    obtain ⟨pieces', reads, whole, rewordings, recuts⟩ := ih there fun inside member =>
      formed inside (List.mem_cons_of_mem piece member)
    refine ⟨piece' :: pieces', ?_, ?_, .cons reworded rewordings, .cons recut recuts⟩
    · rw [List.flatMap_cons, read, reads]
    · rw [Quoted.whole_cons, write_append, whole, written]

private theorem exchange_text {text : Text} {tokens : List Token} (exchanged : Exchanged (read text) tokens) :
    (Quoted.segments (write tokens)).flatMap ofSegment = tokens ∧
      List.Forall₂ Reworded (Quoted.segments text) (Quoted.segments (write tokens)) := by
  obtain ⟨pieces, reads, whole, reworded, recut⟩ := exchange_segments exchanged fun inside member =>
    Quoted.exists_of_quoted_mem member
  have cut := Quoted.segments_recut recut
  rw [whole] at cut
  rw [cut]
  exact ⟨reads, reworded⟩

/-- What a text reads as after an exchange is what was put there. -/
theorem read_write_exchanged {text : Text} {tokens : List Token} (exchanged : Exchanged (read text) tokens) :
    read (write tokens) = tokens :=
  (exchange_text exchanged).1

/-- An exchange moves no quotes, and leaves what is quoted as it is. -/
theorem segments_write_exchanged {text : Text} {tokens : List Token} (exchanged : Exchanged (read text) tokens) :
    List.Forall₂ Reworded (Quoted.segments text) (Quoted.segments (write tokens)) :=
  (exchange_text exchanged).2

theorem read_of_no_quotes {text : Text} (none : ∀ c ∈ text, Quoted.isQuote c = false) : read text = ofUnquoted text := by
  by_cases empty : text = []
  · rw [empty]
    rfl
  · rw [read_eq, Quoted.segments_of_no_quotes empty none, List.flatMap_singleton]
    rfl

theorem read_placeholder {digits : Text} (some : digits ≠ []) (all : ∀ c ∈ digits, Text.isDigit c) :
    read ('$' :: digits) = [placeholder digits] := by
  have tokens := ofUnquoted_placeholder some all .nil
  rw [List.append_nil] at tokens
  have quoteless : ∀ c ∈ '$' :: digits, Quoted.isQuote c = false := not_isQuote_of_mem_placeholder all
  rw [read_of_no_quotes quoteless, tokens]
  rfl

/-! ### New numbers -/

/-- A token whose placeholder takes another number. -/
def withNumber (number : Nat → Nat) : Token → Token
  | placeholder digits => placeholder (Text.ofNat (number (Text.numeralValue digits)))
  | token => token

theorem source_placeholder_ofNat (n : Nat) : source (placeholder (Text.ofNat n)) = numbered n := rfl

theorem exchanged_withNumber (number : Nat → Nat) (tokens : List Token) :
    Exchanged tokens (tokens.map (withNumber number)) := by
  induction tokens with
  | nil => exact .nil
  | cons token _ ih =>
    cases token with
    | placeholder digits => exact .renumbered digits (Text.ofNat_ne_nil _) (fun _ => Text.isDigit_of_mem_ofNat) ih
    | _ => exact .kept _ ih

theorem index?_withNumber (number : Nat → Nat) (token : Token) :
    (withNumber number token).index? = token.index?.map number := by
  cases token with
  | placeholder digits => simp [withNumber, index?, Text.numeralValue_ofNat]
  | _ => rfl

theorem filterMap_index?_withNumber (number : Nat → Nat) (tokens : List Token) :
    (tokens.map (withNumber number)).filterMap index? = (tokens.filterMap index?).map number := by
  rw [List.filterMap_map, List.map_filterMap]
  congr 1
  funext token
  exact index?_withNumber number token

/-- The text with other numbers in its placeholders. -/
def withNumbers (number : Nat → Nat) (text : Text) : Text :=
  write ((read text).map (withNumber number))

theorem read_withNumbers (number : Nat → Nat) (text : Text) :
    read (withNumbers number text) = (read text).map (withNumber number) :=
  read_write_exchanged (exchanged_withNumber number _)

theorem segments_withNumbers (number : Nat → Nat) (text : Text) :
    List.Forall₂ Reworded (Quoted.segments text) (Quoted.segments (withNumbers number text)) :=
  segments_write_exchanged (exchanged_withNumber number _)

theorem placeholders_withNumbers (number : Nat → Nat) (text : Text) :
    placeholders (withNumbers number text) = (placeholders text).map number := by
  rw [placeholders, read_withNumbers, filterMap_index?_withNumber, placeholders]

/-- Of two changes of all numbers, what counts is the one after the other. -/
theorem withNumbers_withNumbers (first second : Nat → Nat) (text : Text) :
    withNumbers second (withNumbers first text) = withNumbers (second ∘ first) text := by
  rw [withNumbers, read_withNumbers, List.map_map, withNumbers]
  congr 1
  refine List.map_congr_left fun token _ => ?_
  cases token with
  | placeholder digits => simp [withNumber, Text.numeralValue_ofNat]
  | _ => rfl

end Token

end SqlCompose
