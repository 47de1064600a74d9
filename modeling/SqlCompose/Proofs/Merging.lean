import Mathlib
import SqlCompose.Proofs.TokenRewriting
import SqlCompose.Proofs.WrittenNumbers

/-!
# Merging keeps every placeholder on its value

Fragments are renumbered one after another, each past the values of those before it. The first fragment that cannot be renumbered stops everything; if all can be, then every placeholder of the result points, in the one list of all values, at the value it pointed at in its own fragment. All this holds as long as no number gets too many digits to be written.
-/

namespace SqlCompose

namespace Token

/-- The digits of a placeholder. -/
def numeral? : Token → Option Text
  | placeholder digits => some digits
  | _ => none

/-- All numerals of a text can be read. -/
def Readable (text : Text) : Prop :=
  ∀ digits, placeholder digits ∈ read text → digits.length ≤ Numeral.digitLimit

instance (text : Text) : Decidable (Readable text) :=
  decidable_of_iff (∀ token ∈ read text, ∀ digits ∈ token.numeral?, digits.length ≤ Numeral.digitLimit) <| by
    constructor
    · intro all digits member
      exact all _ member digits rfl
    · intro all token member digits same
      cases token with
      | placeholder numeral =>
        obtain rfl : numeral = digits := Option.some.inj same
        exact all numeral member
      | _ => cases same

theorem index_lt_of_readable {text : Text} (readable : Readable text) {n : Nat} (member : n ∈ placeholders text) :
    n < 10 ^ Numeral.digitLimit := by
  obtain ⟨token, inside, shown⟩ := List.mem_filterMap.mp member
  cases token with
  | placeholder digits =>
    obtain rfl := Option.some.inj shown
    exact Nat.lt_of_lt_of_le (Text.numeralValue_lt digits) (Nat.pow_le_pow_right (by decide) (readable digits inside))
  | _ => cases shown

theorem readable_withNumbers {number : Nat → Nat} {text : Text} (small : ∀ n ∈ placeholders text, number n < 10 ^ Numeral.digitLimit) :
    Readable (withNumbers number text) := by
  intro digits member
  rw [read_withNumbers] at member
  obtain ⟨token, inside, same⟩ := List.mem_map.mp member
  cases token with
  | placeholder numeral =>
    rw [← Token.placeholder.inj same]
    exact Text.length_ofNat_le (by decide) (small _ (List.mem_filterMap.mpr ⟨_, inside, rfl⟩))
  | _ => cases same

/-- Two tokens that are the same, or both placeholders. -/
inductive Alike : Token → Token → Prop
  | same (token : Token) : Alike token token
  | placeholders (digits digits' : Text) : Alike (placeholder digits) (placeholder digits')

theorem alike_withNumber (number : Nat → Nat) (token : Token) : Alike token (withNumber number token) := by
  cases token with
  | placeholder digits => exact .placeholders digits _
  | _ => exact .same _

/-- Fails at a numeral that cannot be read. -/
private def checkNumeral : Token → Except Error Unit
  | placeholder digits => (Numeral.read digits).map fun _ => ()
  | _ => .ok ()

private theorem forM_cons (token : Token) (rest : List Token) :
    (token :: rest).forM checkNumeral = checkNumeral token >>= fun _ => rest.forM checkNumeral := rfl

private theorem forM_checkNumeral (tokens : List Token) :
    (tokens.forM checkNumeral = .ok () ∧ ∀ digits, placeholder digits ∈ tokens → digits.length ≤ Numeral.digitLimit) ∨
    ∃ digits, tokens.forM checkNumeral = .error (.numeralTooLong digits.length) ∧ placeholder digits ∈ tokens ∧
      Numeral.digitLimit < digits.length := by
  induction tokens with
  | nil => exact .inl ⟨rfl, by simp⟩
  | cons token rest ih =>
    rw [forM_cons]
    by_cases long : ∃ digits, token = placeholder digits ∧ Numeral.digitLimit < digits.length
    · obtain ⟨digits, rfl, beyond⟩ := long
      refine .inr ⟨digits, ?_, by simp, beyond⟩
      rw [checkNumeral, Numeral.read, if_neg (by omega)]
      rfl
    · have short : ∀ digits, token = placeholder digits → digits.length ≤ Numeral.digitLimit := by
        intro digits same
        by_contra beyond
        exact long ⟨digits, same, by omega⟩
      have fine : checkNumeral token = .ok () := by
        cases token with
        | placeholder digits =>
          rw [checkNumeral, Numeral.read, if_pos (short digits rfl)]
          rfl
        | _ => rfl
      rw [fine, Outcome.bind_ok]
      rcases ih with ⟨rest, all⟩ | ⟨digits, wrong, member, beyond⟩
      · refine .inl ⟨rest, ?_⟩
        intro digits member
        rcases List.mem_cons.mp member with same | further
        · exact short digits same.symm
        · exact all digits further
      · exact .inr ⟨digits, wrong, List.mem_cons_of_mem _ member, beyond⟩

theorem readPlaceholders_of_readable {text : Text} (readable : Readable text) :
    readPlaceholders text = .ok (placeholders text) := by
  rcases forM_checkNumeral (read text) with ⟨fine, _⟩ | ⟨digits, _, member, beyond⟩
  · have checked : checkNumerals text = .ok () := fine
    rw [readPlaceholders, checked]
    rfl
  · have short := readable digits member
    omega

theorem readPlaceholders_of_not_readable {text : Text} (unreadable : ¬ Readable text) :
    ∃ n, readPlaceholders text = .error (.numeralTooLong n) ∧ Numeral.digitLimit < n := by
  rcases forM_checkNumeral (read text) with ⟨_, all⟩ | ⟨digits, wrong, _, beyond⟩
  · exact absurd all unreadable
  · have checked : checkNumerals text = .error (.numeralTooLong digits.length) := wrong
    refine ⟨digits.length, ?_, beyond⟩
    rw [readPlaceholders, checked]
    rfl

end Token

namespace Fragment

/-- The numbers of the placeholders of a fragment, in the order of its text. -/
def indices (fragment : Fragment) : List Nat :=
  Token.placeholders fragment.text.content

/-- The highest placeholder belongs to the last value. -/
def Fits (fragment : Fragment) : Prop :=
  highest fragment.indices = fragment.values.length

instance (fragment : Fragment) : Decidable fragment.Fits :=
  inferInstanceAs (Decidable (_ = _))

/-- A fragment that can be renumbered, as long as its numbers can be written. -/
structure Sound (fragment : Fragment) : Prop where
  readable : Token.Readable fragment.text.content
  fits : fragment.Fits

theorem le_highest {numbers : List Nat} {n : Nat} (member : n ∈ numbers) : n ≤ highest numbers := by
  have grows : ∀ (numbers : List Nat) (top : Nat), top ≤ numbers.foldl max top := by
    intro numbers
    induction numbers with
    | nil => exact fun top => Nat.le_refl top
    | cons m rest ih => exact fun top => Nat.le_trans (Nat.le_max_left top m) (ih (max top m))
  have reaches : ∀ (numbers : List Nat) (top : Nat), n ∈ numbers → n ≤ numbers.foldl max top := by
    intro numbers
    induction numbers with
    | nil => intro top absent; cases absent
    | cons m rest ih =>
      intro top here
      rcases List.mem_cons.mp here with rfl | further
      · exact Nat.le_trans (Nat.le_max_right top n) (grows rest (max top n))
      · exact ih (max top m) further
  exact reaches numbers 0 member

theorem highest_mem_or_zero (numbers : List Nat) : highest numbers ∈ numbers ∨ highest numbers = 0 := by
  have reached : ∀ (numbers : List Nat) (top : Nat), numbers.foldl max top ∈ numbers ∨ numbers.foldl max top = top := by
    intro numbers
    induction numbers with
    | nil => exact fun top => .inr rfl
    | cons n rest ih =>
      intro top
      rw [List.foldl_cons]
      rcases ih (max top n) with member | same
      · exact .inl (List.mem_cons_of_mem n member)
      · rcases Nat.le_total top n with small | large
        · exact .inl (by rw [same, Nat.max_eq_right small]; exact List.mem_cons_self)
        · exact .inr (by rw [same, Nat.max_eq_left large])
  exact reached numbers 0

/-- The numbers of a fragment can be written if the number behind the last one has not yet too many digits. -/
theorem writable_shiftedNumbers {fragment : Fragment} (fits : fragment.Fits) {start : Int} (low : 1 ≤ start)
    (high : start + fragment.values.length ≤ 10 ^ Numeral.digitLimit) : ∀ n ∈ fragment.shiftedNumbers start, Numeral.Writable n := by
  intro n member
  rw [shiftedNumbers] at member
  split at member
  · cases member
  · obtain ⟨index, inside, rfl⟩ := List.mem_map.mp member
    have most : index ≤ fragment.values.length := (le_highest inside).trans_eq fits
    exact Numeral.writable_of_lt (by omega) ((by omega : (index : Int) + (start - 1) < start + fragment.values.length).trans_le high)

theorem renumber_eq_ok {fragment : Fragment} {start : Int} {numbered : Numbered Wording} : fragment.renumber start = .ok numbered ↔
    fragment.Sound ∧ (∀ n ∈ fragment.shiftedNumbers start, Numeral.Writable n) ∧
      numbered = ⟨fragment.shiftedText start, fragment.values, start + fragment.values.length⟩ := by
  by_cases readable : Token.Readable fragment.text.content
  · have read := Token.readPlaceholders_of_readable readable
    by_cases fits : highest (Token.placeholders fragment.text.content) = fragment.values.length
    · rw [renumber, read, Outcome.bind_ok, if_pos fits, Outcome.bind_eq_ok]
      constructor
      · rintro ⟨_, checked, same⟩
        exact ⟨⟨readable, fits⟩, Numeral.check_eq_ok.mp checked, (Except.ok.inj same).symm⟩
      · rintro ⟨-, all, rfl⟩
        exact ⟨(), Numeral.check_of_writable all, rfl⟩
    · rw [renumber, read, Outcome.bind_ok, if_neg fits]
      exact ⟨fun done => (by cases done), fun ⟨sound, _⟩ => absurd sound.fits fits⟩
  · obtain ⟨n, wrong, -⟩ := Token.readPlaceholders_of_not_readable readable
    rw [renumber, wrong, Outcome.bind_error]
    exact ⟨fun done => (by cases done), fun ⟨sound, _⟩ => absurd sound.readable readable⟩

/-- A sound fragment is renumbered, unless a number cannot be written. -/
theorem renumber_cases {fragment : Fragment} (sound : fragment.Sound) (start : Int) :
    fragment.renumber start = .ok ⟨fragment.shiftedText start, fragment.values, start + fragment.values.length⟩ ∨
      fragment.renumber start = .error .numberTooLong := by
  have fits : highest (Token.placeholders fragment.text.content) = fragment.values.length := sound.fits
  rw [renumber, Token.readPlaceholders_of_readable sound.readable, Outcome.bind_ok, if_pos fits]
  rcases Numeral.check_cases (fragment.shiftedNumbers start) with ⟨-, checked⟩ | ⟨-, checked⟩
  · exact .inl (by rw [checked]; rfl)
  · exact .inr (by rw [checked]; rfl)

theorem renumber_of_sound {fragment : Fragment} (sound : fragment.Sound) {start : Int} (low : 1 ≤ start)
    (high : start + fragment.values.length ≤ 10 ^ Numeral.digitLimit) :
    fragment.renumber start = .ok ⟨fragment.shiftedText start, fragment.values, start + fragment.values.length⟩ :=
  renumber_eq_ok.mpr ⟨sound, writable_shiftedNumbers sound.fits low high, rfl⟩

/-- Without placeholders nothing is written that could be too long. -/
theorem renumber_of_no_indices {fragment : Fragment} (sound : fragment.Sound) (none : fragment.indices = []) (start : Int) :
    fragment.renumber start = .ok ⟨fragment.shiftedText start, fragment.values, start + fragment.values.length⟩ := by
  refine renumber_eq_ok.mpr ⟨sound, fun n member => ?_, rfl⟩
  have none : Token.placeholders fragment.text.content = [] := none
  rw [shiftedNumbers, none] at member
  split at member <;> cases member

/-- The number of the last value is written, unless the fragment stays as it is. -/
theorem renumber_of_beyond {fragment : Fragment} (sound : fragment.Sound) (some : fragment.indices ≠ []) {start : Int}
    (beyond : 10 ^ Numeral.digitLimit < start + fragment.values.length) : fragment.renumber start = .error .numberTooLong := by
  have last : fragment.values.length ∈ fragment.indices := by
    rw [← sound.fits]
    rcases highest_mem_or_zero fragment.indices with member | none
    · exact member
    · obtain ⟨n, member⟩ := List.exists_mem_of_ne_nil _ some
      have nought : n = 0 := Nat.le_zero.mp ((le_highest member).trans_eq none)
      rwa [none, ← nought]
  have short : (fragment.values.length : Int) < 10 ^ Numeral.digitLimit := by
    exact_mod_cast Token.index_lt_of_readable sound.readable last
  have moved : start ≠ 1 := by
    rintro rfl
    omega
  have long : ¬ Numeral.Writable (fragment.values.length + (start - 1)) := Numeral.not_writable_of_le (by omega)
  refine (renumber_cases sound start).resolve_left fun done => ?_
  obtain ⟨-, written, -⟩ := renumber_eq_ok.mp done
  rw [shiftedNumbers, if_neg moved] at written
  exact long (written _ (List.mem_map_of_mem last))

theorem renumber_of_not_fits {fragment : Fragment} (readable : Token.Readable fragment.text.content)
    (misfits : ¬ fragment.Fits) (start : Int) :
    fragment.renumber start = .error (fragment.misfit (highest fragment.indices)) := by
  have misfits : ¬ highest (Token.placeholders fragment.text.content) = fragment.values.length := misfits
  rw [renumber, Token.readPlaceholders_of_readable readable, Outcome.bind_ok, if_neg misfits]
  rfl

theorem renumber_of_not_readable {fragment : Fragment} (unreadable : ¬ Token.Readable fragment.text.content) :
    ∃ n, Numeral.digitLimit < n ∧ ∀ start, fragment.renumber start = .error (.numeralTooLong n) := by
  obtain ⟨n, wrong, beyond⟩ := Token.readPlaceholders_of_not_readable unreadable
  refine ⟨n, beyond, ?_⟩
  intro start
  rw [renumber, wrong, Outcome.bind_error]

/-! ### One fragment after another -/

/-- The texts of fragments, each numbered past the values of those before it. -/
def placed (start : Int) : List Fragment → List Wording
  | [] => []
  | fragment :: rest => fragment.shiftedText start :: placed (start + fragment.values.length) rest

/-- The values of several fragments in one list. -/
def allValues (fragments : List Fragment) : List Value :=
  fragments.flatMap (·.values)

@[simp] theorem allValues_nil : allValues [] = [] := rfl

@[simp] theorem allValues_cons (fragment : Fragment) (rest : List Fragment) :
    allValues (fragment :: rest) = fragment.values ++ allValues rest := rfl

/-- There is room for the first of some fragments, and behind it for the others. -/
theorem room_cons {start : Int} {first : Fragment} {rest : List Fragment}
    (high : start + (allValues (first :: rest)).length ≤ 10 ^ Numeral.digitLimit) :
    start + first.values.length ≤ 10 ^ Numeral.digitLimit ∧
      start + first.values.length + (allValues rest).length ≤ 10 ^ Numeral.digitLimit := by
  rw [allValues_cons, List.length_append, Nat.cast_add, ← Int.add_assoc] at high
  exact ⟨le_trans (Int.le_add_of_nonneg_right (Int.natCast_nonneg _)) high, high⟩

theorem merge_of_sound {fragments : List Fragment} (sound : ∀ fragment ∈ fragments, fragment.Sound) {start : Int} (low : 1 ≤ start)
    (high : start + (allValues fragments).length ≤ 10 ^ Numeral.digitLimit) :
    merge start fragments = .ok ⟨placed start fragments, allValues fragments, start + (allValues fragments).length⟩ := by
  rw [merge]
  induction fragments generalizing start with
  | nil => simp [mergeFrom, placed, allValues]
  | cons first rest ih =>
    obtain ⟨here, there⟩ := room_cons high
    have others := ih (fun fragment member => sound fragment (List.mem_cons_of_mem first member)) (by omega) there
    rw [mergeFrom, Outcome.bind_ok, renumber_of_sound (sound first (by simp)) low here, Outcome.bind_ok, others, Outcome.bind_ok]
    simp [placed, Int.add_assoc]

/-- Merging fails at the first fragment that cannot be renumbered. -/
theorem merge_of_faulty {before : List Fragment} (sound : ∀ fragment ∈ before, fragment.Sound) {faulty : Fragment}
    {error : Error} (fails : ∀ start, faulty.renumber start = .error error) (after : List Fragment) {start : Int} (low : 1 ≤ start)
    (high : start + (allValues before).length ≤ 10 ^ Numeral.digitLimit) : merge start (before ++ faulty :: after) = .error error := by
  rw [merge]
  induction before generalizing start with
  | nil => rw [List.nil_append, mergeFrom, Outcome.bind_ok, fails, Outcome.bind_error]
  | cons first rest ih =>
    obtain ⟨here, there⟩ := room_cons high
    have others := ih (fun fragment member => sound fragment (List.mem_cons_of_mem first member)) (by omega) there
    rw [List.cons_append, mergeFrom, Outcome.bind_ok, renumber_of_sound (sound first (by simp)) low here, Outcome.bind_ok, others,
      Outcome.bind_error]

theorem sound_or_first_faulty (fragments : List Fragment) :
    (∀ fragment ∈ fragments, fragment.Sound) ∨
    ∃ before faulty after, fragments = before ++ faulty :: after ∧ (∀ fragment ∈ before, fragment.Sound) ∧
      ¬ faulty.Sound := by
  induction fragments with
  | nil => exact .inl (by simp)
  | cons first rest ih =>
    by_cases sound : first.Sound
    · rcases ih with all | ⟨before, faulty, after, rfl, fine, wrong⟩
      · exact .inl (by simpa [sound] using all)
      · exact .inr ⟨first :: before, faulty, after, rfl, by simpa [sound] using fine, wrong⟩
    · exact .inr ⟨[], first, rest, rfl, by simp, sound⟩

theorem length_of_mergeFrom {α : Type} {read : α → Except Error Fragment} {start : Int} {sources : List α} {merged : Merged}
    (done : mergeFrom read start sources = .ok merged) : merged.texts.length = sources.length := by
  induction sources generalizing start merged with
  | nil =>
    obtain rfl := Except.ok.inj done
    rfl
  | cons source rest ih =>
    obtain ⟨_, -, further⟩ := Outcome.bind_eq_ok.mp done
    obtain ⟨_, -, further⟩ := Outcome.bind_eq_ok.mp further
    obtain ⟨others, there, same⟩ := Outcome.bind_eq_ok.mp further
    obtain rfl := Except.ok.inj same
    rw [List.length_cons, ih there, List.length_cons]

/-- The values before some place are not more than all. -/
theorem room_before {start : Int} {before after : List Fragment} (high : start + (allValues (before ++ after)).length ≤ 10 ^ Numeral.digitLimit) :
    start + (allValues before).length ≤ 10 ^ Numeral.digitLimit := by
  rw [allValues, List.flatMap_append, List.length_append, Nat.cast_add] at high
  rw [allValues]
  omega

/-- The ways in which merging can go where all numbers can be written. -/
theorem merge_cases {start : Int} (low : 1 ≤ start) {fragments : List Fragment}
    (high : start + (allValues fragments).length ≤ 10 ^ Numeral.digitLimit) :
    ((∀ fragment ∈ fragments, fragment.Sound) ∧
      merge start fragments = .ok ⟨placed start fragments, allValues fragments, start + (allValues fragments).length⟩) ∨
    ∃ before faulty after, fragments = before ++ faulty :: after ∧ (∀ fragment ∈ before, fragment.Sound) ∧
      ((Token.Readable faulty.text.content ∧ ¬ faulty.Fits ∧
          merge start fragments = .error (faulty.misfit (highest faulty.indices))) ∨
        (¬ Token.Readable faulty.text.content ∧ ∃ n, merge start fragments = .error (.numeralTooLong n))) := by
  rcases sound_or_first_faulty fragments with sound | ⟨before, faulty, after, rfl, sound, wrong⟩
  · exact .inl ⟨sound, merge_of_sound sound low high⟩
  · refine .inr ⟨before, faulty, after, rfl, sound, ?_⟩
    by_cases readable : Token.Readable faulty.text.content
    · have misfits : ¬ faulty.Fits := fun fits => wrong ⟨readable, fits⟩
      exact .inl ⟨readable, misfits, merge_of_faulty sound (renumber_of_not_fits readable misfits) after low (room_before high)⟩
    · obtain ⟨n, _, fails⟩ := renumber_of_not_readable readable
      exact .inr ⟨readable, n, merge_of_faulty sound fails after low (room_before high)⟩

/-! ### Where the placeholders point -/

theorem length_placed (start : Int) (fragments : List Fragment) : (placed start fragments).length = fragments.length := by
  induction fragments generalizing start with
  | nil => rfl
  | cons first rest ih => rw [placed, List.length_cons, ih, List.length_cons]

theorem placed_getElem? {fragments : List Fragment} {i : Nat} {fragment : Fragment} (here : fragments[i]? = some fragment)
    (start : Int) :
    (placed start fragments)[i]? = some (fragment.shiftedText (start + (allValues (fragments.take i)).length)) := by
  induction fragments generalizing i start with
  | nil => simp at here
  | cons first rest ih =>
    cases i with
    | zero =>
      obtain rfl : first = fragment := by simpa using here
      simp [placed, allValues]
    | succ i =>
      have there : rest[i]? = some fragment := by simpa using here
      rw [placed, List.getElem?_cons_succ, ih there]
      simp [Int.add_assoc]

theorem allValues_getElem? {fragments : List Fragment} {i k : Nat} {fragment : Fragment}
    (here : fragments[i]? = some fragment) (inside : k < fragment.values.length) :
    (allValues fragments)[(allValues (fragments.take i)).length + k]? = fragment.values[k]? := by
  induction fragments generalizing i with
  | nil => simp at here
  | cons first rest ih =>
    cases i with
    | zero =>
      obtain rfl : first = fragment := by simpa using here
      rw [List.take_zero, allValues_nil, List.length_nil, Nat.zero_add, allValues_cons, List.getElem?_append_left inside]
    | succ i =>
      have there : rest[i]? = some fragment := by simpa using here
      have place : (allValues ((first :: rest).take (i + 1))).length + k =
          first.values.length + ((allValues (rest.take i)).length + k) := by
        simp
        omega
      rw [place, allValues_cons, List.getElem?_append_right (by omega), Nat.add_sub_cancel_left]
      exact ih there

theorem shifted_eq_withNumber (offset : Nat) (token : Token) :
    Token.shifted offset token = (Token.withNumber (· + offset) token).source := by
  cases token with
  | placeholder digits =>
    have sum : ((Text.numeralValue digits : Int) + offset) = ((Text.numeralValue digits + offset : Nat) : Int) := by omega
    rw [Token.shifted, sum]
    rfl
  | _ => rfl

/-- A fragment numbered from a later start has the same tokens, but for the numbers, which have all grown by the same amount. -/
theorem shiftedText_content (fragment : Fragment) (offset : Nat) :
    (fragment.shiftedText (1 + offset)).content =
      if offset = 0 then fragment.text.content else Token.withNumbers (· + offset) fragment.text.content := by
  by_cases still : offset = 0
  · simp [shiftedText, still]
  · have moved : (1 + offset : Int) ≠ 1 := by omega
    have distance : (1 + offset : Int) - 1 = offset := by omega
    rw [shiftedText, if_neg moved, if_neg still, Wording.content_plain, distance, Token.withNumbers, Token.write,
      List.flatMap_map]
    exact List.flatMap_congr fun token _ => shifted_eq_withNumber offset token

/-- A text and the same text with all its numbers raised. -/
structure Raised (offset : Nat) (text text' : Text) : Prop where
  numbers : Token.placeholders text' = (Token.placeholders text).map (· + offset)
  tokens : List.Forall₂ Token.Alike (Token.read text) (Token.read text')
  segments : List.Forall₂ Token.Reworded (Quoted.segments text) (Quoted.segments text')

theorem raised_shiftedText (fragment : Fragment) (offset : Nat) :
    Raised offset fragment.text.content (fragment.shiftedText (1 + offset)).content := by
  rw [shiftedText_content]
  split
  · next still =>
    subst still
    exact ⟨by simp, List.forall₂_same.mpr fun token _ => .same token, List.forall₂_same.mpr fun segment _ => ⟨rfl, fun _ => rfl⟩⟩
  · refine ⟨Token.placeholders_withNumbers _ _, ?_, Token.segments_withNumbers _ _⟩
    rw [Token.read_withNumbers, List.forall₂_map_right_iff]
    exact List.forall₂_same.mpr fun token _ => Token.alike_withNumber _ token

/-- A placeholder of a fragment and the one that stands in its place after merging point at the same value. -/
def SameValue (fragment : Fragment) (start : Int) (merged : List Value) (old new : Nat) : Prop :=
  start ≤ new ∧ ∃ value, fragment.values[old - 1]? = some value ∧ merged[(new - start).toNat]? = some value

private theorem sameValue_raised {fragments : List Fragment} {i : Nat} {fragment : Fragment}
    (here : fragments[i]? = some fragment) (fits : fragment.Fits) (positive : ∀ n ∈ fragment.indices, 1 ≤ n) (first : Nat)
    {offset : Nat} (distance : offset = first + (allValues (fragments.take i)).length) :
    List.Forall₂ (SameValue fragment (1 + first) (allValues fragments)) fragment.indices
      (fragment.indices.map (· + offset)) := by
  rw [List.forall₂_map_right_iff]
  refine List.forall₂_same.mpr ?_
  intro n member
  have low := positive n member
  have high : n ≤ fragment.values.length := by
    rw [← fits]
    exact le_highest member
  have inside : n - 1 < fragment.values.length := by omega
  have place : (((n + offset : Nat) : Int) - (1 + first)).toNat = (allValues (fragments.take i)).length + (n - 1) := by omega
  refine ⟨by omega, fragment.values[n - 1], List.getElem?_eq_getElem inside, ?_⟩
  rw [place, allValues_getElem? here inside, List.getElem?_eq_getElem inside]

/-- Merging from a positive start, where the number behind the last one has not yet too many digits, fails at the first fragment whose highest placeholder does not belong to its last value, or one of whose numerals is too long to be read; otherwise it gives all values in order, the index after them, and texts in which nothing but the numbers has changed and every placeholder is on its own value. -/
theorem merge_keeps_values (start : Int) (positive : 1 ≤ start) (fragments : List Fragment)
    (few : start + (fragments.flatMap (·.values)).length ≤ 10 ^ Numeral.digitLimit) :
    ((∃ text found given, merge start fragments = .error (.mismatch text found given)) ↔
      ∃ before faulty after, fragments = before ++ faulty :: after ∧ (∀ fragment ∈ before, fragment.Sound) ∧
        Token.Readable faulty.text.content ∧ ¬ faulty.Fits) ∧
    ((∃ digits, merge start fragments = .error (.numeralTooLong digits)) ↔
      ∃ before faulty after, fragments = before ++ faulty :: after ∧ (∀ fragment ∈ before, fragment.Sound) ∧
        ¬ Token.Readable faulty.text.content) ∧
    ((∀ fragment ∈ fragments, fragment.Sound) → ∃ merged, merge start fragments = .ok merged ∧
      merged.values = fragments.flatMap (·.values) ∧
      merged.next = start + (fragments.map (·.values.length)).sum ∧
      merged.texts.length = fragments.length ∧
      ∀ (i : Nat) (fragment : Fragment), fragments[i]? = some fragment → ∃ (text : Wording) (offset : Nat), merged.texts[i]? = some text ∧
        Raised offset fragment.text.content text.content ∧
        ((∀ n ∈ fragment.indices, 1 ≤ n) →
          List.Forall₂ (SameValue fragment start merged.values) fragment.indices (Token.placeholders text.content))) := by
  have outcome := merge_cases positive few
  refine ⟨?_, ?_, ?_⟩
  · constructor
    · rintro ⟨text, found, given, failed⟩
      rcases outcome with ⟨_, merged⟩ | ⟨before, faulty, after, split, sound, ⟨readable, misfits, _⟩ | ⟨_, n, long⟩⟩
      · rw [merged] at failed
        cases failed
      · exact ⟨before, faulty, after, split, sound, readable, misfits⟩
      · rw [long] at failed
        cases failed
    · rintro ⟨before, faulty, after, rfl, sound, readable, misfits⟩
      exact ⟨_, _, _, merge_of_faulty sound (renumber_of_not_fits readable misfits) after positive (room_before few)⟩
  · constructor
    · rintro ⟨digits, failed⟩
      rcases outcome with ⟨_, merged⟩ | ⟨before, faulty, after, split, sound, ⟨_, _, wrong⟩ | ⟨unreadable, _⟩⟩
      · rw [merged] at failed
        cases failed
      · rw [wrong] at failed
        cases failed
      · exact ⟨before, faulty, after, split, sound, unreadable⟩
    · rintro ⟨before, faulty, after, rfl, sound, unreadable⟩
      obtain ⟨n, _, fails⟩ := renumber_of_not_readable unreadable
      exact ⟨n, merge_of_faulty sound fails after positive (room_before few)⟩
  · intro sound
    refine ⟨_, merge_of_sound sound positive few, rfl, ?_, length_placed start fragments, ?_⟩
    · rw [allValues, List.length_flatMap]
    · intro i fragment here
      obtain ⟨first, rfl⟩ : ∃ first : Nat, start = 1 + first := ⟨(start - 1).toNat, by omega⟩
      obtain ⟨offset, distance⟩ : ∃ offset : Nat, offset = first + (allValues (fragments.take i)).length := ⟨_, rfl⟩
      have position : (1 + first : Int) + (allValues (fragments.take i)).length = 1 + offset := by omega
      have raised := raised_shiftedText fragment offset
      refine ⟨fragment.shiftedText (1 + offset), offset, ?_, raised, ?_⟩
      · rw [placed_getElem? here, position]
      · intro positive
        rw [raised.numbers]
        exact sameValue_raised here (sound fragment (List.mem_of_getElem? here)).fits positive first distance

/-- Placeholders out of order, used twice or only quoted, before and after merging. -/
theorem merge_keeps_values_out_of_order :
    (1 : Int) ≤ 9 ∧ (9 : Int) + 3 ≤ 10 ^ Numeral.digitLimit ∧
    ∃ merged, merge 9 [⟨.plain "a = $2 OR '$1' = $1", [.int 5, .int 6]⟩, ⟨.plain "b = $1 AND c = $1", [.int 7]⟩] = .ok merged ∧
      merged.values = [.int 5, .int 6, .int 7] ∧ merged.next = 12 := by
  have sound : ∀ fragment ∈ [⟨.plain "a = $2 OR '$1' = $1", [.int 5, .int 6]⟩, ⟨.plain "b = $1 AND c = $1", [.int 7]⟩],
      Fragment.Sound fragment := by
    intro fragment member
    rcases (by simpa using member : fragment = _ ∨ fragment = _) with rfl | rfl
    · exact ⟨by decide +kernel, by decide +kernel⟩
    · exact ⟨by decide +kernel, by decide +kernel⟩
  obtain ⟨merged, done, values, next, _⟩ := (merge_keeps_values 9 (by decide) _ (by decide +kernel)).2.2 sound
  exact ⟨by decide, by decide +kernel, merged, done, values, next⟩

/-- The placeholder of the first value with noughts in front of its one digit. -/
def padded (noughts : Nat) : Fragment :=
  ⟨.plain ('$' :: (List.replicate noughts '0' ++ ['1'])), [.int 5]⟩

theorem isDigit_padded {noughts : Nat} : ∀ c ∈ List.replicate noughts '0' ++ ['1'], Text.isDigit c := by
  intro c member
  rcases List.mem_append.mp member with nought | one
  · rw [List.eq_of_mem_replicate nought]
    decide
  · rw [List.mem_singleton.mp one]
    decide

private theorem read_padded (noughts : Nat) :
    Token.read (padded noughts).text.content = [.placeholder (List.replicate noughts '0' ++ ['1'])] :=
  Token.read_placeholder (by simp) isDigit_padded

theorem fits_padded (noughts : Nat) : (padded noughts).Fits := by
  have value : Text.numeralValue (List.replicate noughts '0' ++ ['1']) = 1 := Text.numeralValue_noughts noughts ['1']
  rw [Fits, indices, Token.placeholders, read_padded]
  simp [Token.index?, value, highest, padded]

theorem renumber_padded {noughts : Nat} (many : Numeral.digitLimit ≤ noughts) (start : Int) :
    (padded noughts).renumber start = .error (.numeralTooLong (noughts + 1)) := by
  have length : (List.replicate noughts '0' ++ ['1']).length = noughts + 1 := by simp
  have checked : Token.checkNumerals (padded noughts).text.content = .error (.numeralTooLong (noughts + 1)) := by
    rw [Token.checkNumerals, read_padded]
    change (Except.map _ (Numeral.read _) >>= fun _ => _) = _
    rw [Numeral.read, if_neg (by omega), length]
    rfl
  rw [renumber, Token.readPlaceholders, checked]
  rfl

private theorem merge_padded {noughts : Nat} (many : Numeral.digitLimit ≤ noughts) :
    merge 1 [padded noughts] = .error (.numeralTooLong (noughts + 1)) := by
  rw [merge, mergeFrom, Outcome.bind_ok, renumber_padded many]
  rfl

/-- A numeral of too many digits is refused even where its number is the right one, and a number that would get too many digits is not written. -/
theorem merge_refuses_long_numeral :
    Fits ⟨.plain ('$' :: (List.replicate 4300 '0' ++ ['1'])), [.int 5]⟩ ∧
    merge 1 [⟨.plain ('$' :: (List.replicate 4300 '0' ++ ['1'])), [.int 5]⟩] = .error (.numeralTooLong 4301) ∧
    Sound ⟨.plain "$1", [.int 5]⟩ ∧ merge (10 ^ 4300) [⟨.plain "$1", [.int 5]⟩] = .error .numberTooLong := by
  have sound : Sound ⟨.plain "$1", [.int 5]⟩ := ⟨by decide +kernel, by decide +kernel⟩
  have beyond : (10 : Int) ^ Numeral.digitLimit < 10 ^ 4300 + (1 : Nat) := by
    rw [Numeral.digitLimit]
    omega
  refine ⟨fits_padded 4300, merge_padded (Nat.le_refl 4300), sound, ?_⟩
  rw [merge, mergeFrom, Outcome.bind_ok, renumber_of_beyond sound (by decide +kernel) beyond]
  rfl

end Fragment

end SqlCompose
