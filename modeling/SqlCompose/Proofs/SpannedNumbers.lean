import Mathlib
import SqlCompose.Proofs.BoundMarkers
import SqlCompose.Proofs.MatchedValues
import SqlCompose.Proofs.PaddedTexts

/-!
# The numbers that a text spans

A finished text can go wrong inside another in few ways: it leaves a quote open, asks for a schema, has a numeral that is too long to be read, or numbers that do not fit its values. `Spans` excludes all of them: the numbers lie between a start and a count, and the last of them is there. Nothing is said of the others, for a finished statement that a caller brings along may use a value twice or not at all. Literal text, names and texts that span the numbers from where the one before stopped are put together to texts that span the numbers of all.
-/

namespace SqlCompose

open Token

namespace Token

/-! ### Text that stands apart -/

/-- A character that no word, no numeral and no quote goes on with. -/
def setsOff (c : Char) : Bool :=
  !Text.isWord c && !Quoted.isQuote c

theorem SetOff.cons {c : Char} (apart : setsOff c = true) (rest : Text) : SetOff (c :: rest) := by
  rw [setsOff, Bool.and_eq_true, Bool.not_eq_true', Bool.not_eq_true'] at apart
  refine ⟨.cons apart.1, .cons ?_, .cons apart.2⟩
  by_contra digit
  rw [Text.isWord_of_isDigit (by simpa using digit)] at apart
  cases apart.1

theorem SetOff.nil : SetOff [] :=
  ⟨.nil, .nil, .nil⟩

theorem SetOff.literal {run : Text} (first : run.head?.map setsOff = some true) (rest : Text) : SetOff (run ++ rest) := by
  cases run with
  | nil => cases first
  | cons c run => exact .cons (Option.some.inj first) (run ++ rest)

theorem schema_of_mem_bound {tokens : List Token} {start : Nat} {digits : Text} (member : schema digits ∈ bound start tokens) :
    schema digits ∈ tokens := by
  induction tokens generalizing start with
  | nil => cases member
  | cons token rest ih =>
    cases token with
    | marker =>
      rcases List.mem_cons.mp member with same | further
      · cases same
      · exact List.mem_cons_of_mem _ (ih further)
    | _ =>
      rcases List.mem_cons.mp member with same | further
      · exact List.mem_cons.mpr (.inl same)
      · exact List.mem_cons_of_mem _ (ih further)

end Token

/-- A finished text with numbers from a start on, as many as a count at most, and the last of them. -/
structure Spans (text : Text) (start count : Nat) : Prop where
  balanced : Slotted.Balanced text
  schemaless : ∀ digits, .schema digits ∉ read text
  readable : Readable text
  within : ∀ n ∈ placeholders text, start ≤ n ∧ n < start + count
  reached : ∀ rest, count = rest + 1 → start + rest ∈ placeholders text

namespace Spans

variable {text text' : Text} {start count count' : Nat}

/-! ### Without numbers -/

theorem numberless (spans : Spans text start 0) : placeholders text = [] := by
  refine List.eq_nil_iff_forall_not_mem.mpr fun n member => ?_
  have bounds := spans.within n member
  omega

theorem of_numberless (balanced : Slotted.Balanced text) (schemaless : ∀ digits, .schema digits ∉ read text)
    (none : placeholders text = []) (start : Nat) : Spans text start 0 := by
  refine ⟨balanced, schemaless, ?_, by simp [none], by simp⟩
  intro digits member
  have found : Text.numeralValue digits ∈ placeholders text := List.mem_filterMap.mpr ⟨_, member, rfl⟩
  rw [none] at found
  cases found

theorem anywhere (spans : Spans text start 0) (start' : Nat) : Spans text start' 0 :=
  .of_numberless spans.balanced spans.schemaless spans.numberless start'

theorem of_plain (ordinary : text.all isPlain = true) (start : Nat) : Spans text start 0 := by
  have tokens : read (text ++ []) = text.map .plain ++ read [] := read_literal text ordinary []
  rw [List.append_nil] at tokens
  have none : read [] = [] := rfl
  rw [none, List.append_nil] at tokens
  refine .of_numberless ((Slotted.of_plain ordinary : Slotted False text []).found.balanced) ?_ ?_ start
  · simp [tokens]
  · rw [placeholders, tokens, List.filterMap_map]
    exact List.filterMap_eq_nil_iff.mpr fun _ _ => rfl

theorem nil (start : Nat) : Spans [] start 0 :=
  of_plain rfl start

/-! ### Side by side -/

theorem append (first : Spans text start count) (second : Spans text' (start + count) count') (apart : SetOff text') :
    Spans (text ++ text') start (count + count') := by
  have tokens := read_append first.balanced apart
  have numbers : placeholders (text ++ text') = placeholders text ++ placeholders text' := by
    rw [placeholders, tokens, List.filterMap_append, placeholders, placeholders]
  refine ⟨Quoted.balanced_append first.balanced second.balanced apart.quote, ?_, ?_, ?_, ?_⟩
  · intro digits member
    rw [tokens] at member
    exact (List.mem_append.mp member).elim (first.schemaless digits) (second.schemaless digits)
  · intro digits member
    rw [tokens] at member
    exact (List.mem_append.mp member).elim (first.readable digits) (second.readable digits)
  · intro n member
    rw [numbers] at member
    rcases List.mem_append.mp member with left | right
    · have bounds := first.within n left
      omega
    · have bounds := second.within n right
      omega
  · intro rest same
    rw [numbers]
    cases count' with
    | zero => exact List.mem_append_left _ (first.reached rest same)
    | succ rest' =>
      have last := second.reached rest' rfl
      have place : start + rest = start + count + rest' := by omega
      rw [place]
      exact List.mem_append_right _ last

theorem append_bare (first : Spans text start count) (second : Spans text' 0 0) (apart : SetOff text') :
    Spans (text ++ text') start count :=
  first.append (second.anywhere _) apart

theorem bare_append (first : Spans text 0 0) (second : Spans text' start count) (apart : SetOff text') :
    Spans (text ++ text') start count := by
  have whole := (first.anywhere start).append second apart
  rwa [Nat.zero_add] at whole

theorem literal (run : Text) (ordinary : run.all isPlain = true) (spans : Spans text start count) :
    Spans (run ++ text) start count := by
  have tokens := read_literal run ordinary text
  have numbers : placeholders (run ++ text) = placeholders text := by
    rw [placeholders, tokens, List.filterMap_append, List.filterMap_map, placeholders]
    exact congrArg (· ++ _) (List.filterMap_eq_nil_iff.mpr fun _ _ => rfl)
  have none : ∀ c ∈ run, Quoted.isQuote c = false := fun c member => not_isQuote_of_isPlain (List.all_eq_true.mp ordinary c member)
  refine ⟨Quoted.balanced_append_no_quotes none spans.balanced, ?_, ?_, by rw [numbers]; exact spans.within,
    by rw [numbers]; exact spans.reached⟩
  · intro digits member
    rw [tokens] at member
    refine spans.schemaless digits ((List.mem_append.mp member).resolve_left ?_)
    simp
  · intro digits member
    rw [tokens] at member
    refine spans.readable digits ((List.mem_append.mp member).resolve_left ?_)
    simp

theorem behind (run : Text) (ordinary : run.all isPlain = true) (first : run.head?.map setsOff = some true)
    (spans : Spans text start count) : Spans (text ++ run) start count := by
  have apart := SetOff.literal first []
  rw [List.append_nil] at apart
  exact spans.append_bare (of_plain ordinary 0) apart

/-! ### Lists of texts -/

/-- Texts that span numbers one after another. -/
inductive InTurn : List Text → Nat → Nat → Prop
  | nil {start : Nat} : InTurn [] start 0
  | cons {text : Text} {texts : List Text} {start count count' : Nat} (here : Spans text start count)
      (there : InTurn texts (start + count) count') : InTurn (text :: texts) start (count + count')

theorem inTurn_bare {texts : List Text} (all : ∀ text ∈ texts, Spans text 0 0) (start : Nat) : InTurn texts start 0 := by
  induction texts with
  | nil => exact .nil
  | cons text texts ih =>
    exact .cons ((all text (by simp)).anywhere start) (ih fun other member => all other (List.mem_cons_of_mem text member))

theorem join (separator : Text) (ordinary : separator.all isPlain = true)
    (first : separator.head?.map setsOff = some true) {texts : List Text} (inTurn : InTurn texts start count) :
    Spans (Text.join separator texts) start count := by
  induction inTurn with
  | nil => exact nil _
  | @cons text texts start count count' here there ih =>
    cases there with
    | nil =>
      rw [Text.join, List.intercalate_singleton]
      exact here
    | cons next others =>
      rw [Text.join, List.intercalate_cons_cons, List.append_assoc]
      exact here.append (.literal separator ordinary ih) (.literal first _)

theorem join_bare (separator : Text) (ordinary : separator.all isPlain = true)
    (first : separator.head?.map setsOff = some true) {texts : List Text} (all : ∀ text ∈ texts, Spans text 0 0) :
    Spans (Text.join separator texts) 0 0 :=
  join separator ordinary first (inTurn_bare all 0)

/-! ### Padding -/

theorem flatMap {change : Char → Text} (padding : Padding change) (spans : Spans text start count) :
    Spans (text.flatMap change) start count := by
  have numbers := placeholders_flatMap padding text
  have old {token : Token} (member : token ∈ read (text.flatMap change)) (other : ∀ c, token ≠ plain c)
      (loose : ∀ inside, token ≠ quoted inside) : token ∈ read text := by
    rw [read_flatMap padding] at member
    obtain ⟨source, inside, padded⟩ := List.mem_flatMap.mp member
    rcases mem_of_mem_padded padded with rfl | ⟨c, same⟩ | ⟨text, same⟩
    · exact inside
    · exact absurd same (other c)
    · exact absurd same (loose text)
  refine ⟨Quoted.balanced_flatMap padding.harmless spans.balanced, ?_, ?_, by rw [numbers]; exact spans.within,
    by rw [numbers]; exact spans.reached⟩
  · exact fun digits member => spans.schemaless digits (old member (by simp) (by simp))
  · exact fun digits member => spans.readable digits (old member (by simp) (by simp))

theorem indent (spaces : Nat) (spans : Spans text start count) : Spans (Text.indent spaces text) start count := by
  rw [Slotted.indent_eq]
  refine .literal _ (List.all_eq_true.mpr fun c member => ?_) (spans.flatMap (padding_setIn spaces))
  rw [List.eq_of_mem_replicate member]
  decide

theorem double {bracket : Char} (ordinary : isPlain bracket = true) (apart : Text.isWord bracket = false)
    (spans : Spans text start count) : Spans (Text.double bracket text) start count :=
  spans.flatMap (padding_double ordinary apart)

/-! ### Numbers that are given out -/

theorem numbered {n : Nat} (small : n < 10 ^ Numeral.digitLimit) : Spans (Token.numbered n) n 1 := by
  have all : ∀ c ∈ Text.ofNat n, Text.isDigit c = true := fun _ => Text.isDigit_of_mem_ofNat
  have tokens : read (Token.numbered n) = [placeholder (Text.ofNat n)] := read_placeholder (Text.ofNat_ne_nil n) all
  have numbers : placeholders (Token.numbered n) = [n] := by
    rw [placeholders, tokens, List.filterMap_cons_some (show index? (placeholder (Text.ofNat n)) = some n by
      rw [index?, Text.numeralValue_ofNat])]
    rfl
  refine ⟨Quoted.balanced_of_no_quotes (not_isQuote_of_mem_placeholder all), by simp [tokens], ?_, by simp [numbers], by simp [numbers]⟩
  intro digits member
  rw [tokens] at member
  obtain rfl := Token.placeholder.inj (List.mem_singleton.mp member)
  exact Text.length_ofNat_le (by decide) small

theorem boundMarkers (awaits : Awaits text count) (schemaless : ∀ digits, .schema digits ∉ read text)
    (small : start + count ≤ 10 ^ Numeral.digitLimit) : Spans (boundMarkers text start).1 start count := by
  have tokens := read_boundMarkers awaits start
  have unnumbered : Unnumbered (read text) := by
    have numbers := awaits.placeholders_eq
    rw [unnumbered_iff, ← placeholders, numbers]
    simp [Slot.number?]
  have counted := countMarkers_of_replicate awaits
  have numbers : placeholders (SqlCompose.boundMarkers text start).1 = List.range' start count := by
    rw [placeholders, tokens, filterMap_index?_bound unnumbered, ← countMarkers, counted]
  have slotted : Slotted False (SqlCompose.boundMarkers text start).1 ((List.range' start count).map .numbered) :=
    awaits.boundMarkers start
  refine ⟨slotted.found.balanced, ?_, ?_, ?_, ?_⟩
  · intro digits member
    rw [tokens] at member
    exact schemaless digits (schema_of_mem_bound member)
  · intro digits member
    rw [tokens] at member
    obtain ⟨n, below, rfl⟩ := exists_of_mem_bound unnumbered member
    rw [← countMarkers, counted] at below
    exact Text.length_ofNat_le (by decide) (below.trans_le small)
  · intro n member
    rw [numbers, List.mem_range'_1] at member
    exact member
  · intro rest same
    rw [numbers, List.mem_range'_1]
    omega

theorem withNumbers {offset : Nat} (spans : Spans text start count) (small : start + offset + count ≤ 10 ^ Numeral.digitLimit) :
    Spans (Token.withNumbers (· + offset) text) (start + offset) count := by
  have numbers := placeholders_withNumbers (· + offset) text
  have slotted := (Slotted.of_balanced spans.balanced False.elim : Slotted False _ _).withNumbers (· + offset)
  refine ⟨slotted.found.balanced, ?_, ?_, ?_, ?_⟩
  · intro digits member
    rw [read_withNumbers] at member
    obtain ⟨token, inside, same⟩ := List.mem_map.mp member
    cases token with
    | schema digits' =>
      obtain rfl : digits' = digits := Token.schema.inj same
      exact spans.schemaless digits' inside
    | _ => cases same
  · refine readable_withNumbers fun n member => ?_
    have bounds := spans.within n member
    omega
  · intro n member
    rw [numbers] at member
    obtain ⟨m, inside, rfl⟩ := List.mem_map.mp member
    have bounds := spans.within m inside
    omega
  · intro rest same
    rw [numbers]
    exact List.mem_map.mpr ⟨_, spans.reached rest same, by omega⟩

/-! ### Fragments -/

/-- A text that spans a number for each of some values fits them. -/
theorem sound {fragment : Fragment} (spans : Spans fragment.text.content 1 fragment.values.length) : fragment.Sound := by
  refine ⟨spans.readable, ?_⟩
  have bounds : ∀ n ∈ fragment.indices, n ≤ fragment.values.length := fun n member => by
    have inside := spans.within n member
    omega
  unfold Fragment.Fits
  refine Nat.le_antisymm ?_ ?_
  · rcases Fragment.highest_mem_or_zero fragment.indices with member | none
    · exact bounds _ member
    · omega
  · cases count : fragment.values.length with
    | zero => exact Nat.zero_le _
    | succ rest =>
      have last := Fragment.le_highest (spans.reached rest count)
      rw [Nat.add_comm 1 rest] at last
      exact last

end Spans

/-- A wording that spans the same numbers whether it is read or printed. -/
structure Wording.Spans (wording : Wording) (start count : Nat) : Prop where
  content : SqlCompose.Spans wording.content start count
  printed : SqlCompose.Spans wording.printed start count

namespace Fragment

theorem shiftedText_spans {fragment : Fragment} {count offset : Nat} (spans : fragment.text.Spans 1 count)
    (small : 1 + offset + count ≤ 10 ^ Numeral.digitLimit) : (fragment.shiftedText (1 + offset : Nat)).Spans (1 + offset) count := by
  have moved := fragment.shiftedText_content offset
  rw [Nat.cast_add, Nat.cast_one]
  by_cases still : offset = 0
  · subst still
    exact spans
  · rw [if_neg still] at moved
    have plain : fragment.shiftedText (1 + offset : Int) = .plain (fragment.shiftedText (1 + offset : Int)).content := by
      rw [shiftedText, if_neg (by omega)]
      rfl
    have whole := spans.content.withNumbers small
    rw [← moved] at whole
    rw [plain]
    exact ⟨whole, whole⟩

theorem renumber_spans {fragment : Fragment} (spans : fragment.text.Spans 1 fragment.values.length) {start : Nat} (positive : 1 ≤ start)
    (small : start + fragment.values.length ≤ 10 ^ Numeral.digitLimit) :
    ∃ text : Wording, fragment.renumber start = .ok ⟨text, fragment.values, (start + fragment.values.length : Nat)⟩ ∧
      text.Spans start fragment.values.length := by
  obtain ⟨offset, rfl⟩ : ∃ offset, start = 1 + offset := ⟨start - 1, by omega⟩
  refine ⟨_, ?_, shiftedText_spans spans small⟩
  rw [renumber_of_sound spans.content.sound (by exact_mod_cast positive) (by exact_mod_cast small)]
  push_cast
  rfl

end Fragment

end SqlCompose
