import Mathlib
import SqlCompose.Proofs.Outcome
import SqlCompose.Statement.Clause

/-!
# Numbers that are written

Numbering fails if a number has too many digits to be written, and in no other way. What it gives otherwise is the text with the numbers in it. From a start that is not below nought nothing fails as long as the number behind the last one is at most the first that has too many digits.
-/

namespace SqlCompose

namespace Numeral

theorem writable_iff {n : Int} : Writable n ↔ n.natAbs < 10 ^ digitLimit := by
  rw [Writable, Nat.pow_eq]

theorem writable_of_lt {n : Int} (low : 0 ≤ n) (high : n < 10 ^ digitLimit) : Writable n := by
  have same : (n.natAbs : Int) = n := Int.natAbs_of_nonneg low
  rw [writable_iff]
  exact_mod_cast same.trans_lt high

theorem not_writable_of_le {n : Int} (high : 10 ^ digitLimit ≤ n) : ¬ Writable n := by
  have same : (n.natAbs : Int) = n := Int.natAbs_of_nonneg (le_trans (by positivity) high)
  have high : 10 ^ digitLimit ≤ n.natAbs := by exact_mod_cast high.trans_eq same.symm
  exact fun writable => Nat.not_lt.mpr high (writable_iff.mp writable)

theorem write_eq_ok {n : Int} {text : Text} : write n = .ok text ↔ Writable n ∧ Text.ofInt n = text := by
  by_cases writable : Writable n
  · simp [write, writable]
  · simp [write, writable]

theorem check_of_writable {numbers : List Int} (all : ∀ n ∈ numbers, Writable n) : check numbers = .ok () :=
  if_pos all

theorem check_of_not_writable {numbers : List Int} {n : Int} (member : n ∈ numbers) (long : ¬ Writable n) :
    check numbers = .error .numberTooLong :=
  if_neg fun all => long (all n member)

theorem check_cases (numbers : List Int) :
    ((∀ n ∈ numbers, Writable n) ∧ check numbers = .ok ()) ∨
      ((∃ n ∈ numbers, ¬ Writable n) ∧ check numbers = .error .numberTooLong) := by
  by_cases all : ∀ n ∈ numbers, Writable n
  · exact .inl ⟨all, if_pos all⟩
  · exact .inr ⟨by simpa using all, if_neg all⟩

theorem check_eq_ok {numbers : List Int} {checked : Unit} : check numbers = .ok checked ↔ ∀ n ∈ numbers, Writable n := by
  rcases check_cases numbers with ⟨all, run⟩ | ⟨⟨n, member, long⟩, run⟩
  · simpa [run] using all
  · simpa [run] using ⟨n, member, long⟩

end Numeral

open Numeral (digitLimit)

/-! ### Outcomes of writing -/

namespace Outcome

variable {α β : Type}

/-- An outcome that fails for no other reason than a number that is too long to be written. -/
def Written (outcome : Except Error α) : Prop :=
  ∀ error, outcome = .error error → error = .numberTooLong

theorem written_ok (value : α) : Written (.ok value : Except Error α) := by
  intro error failed
  cases failed

theorem written_tooLong : Written (.error .numberTooLong : Except Error α) :=
  fun _ failed => (Except.error.inj failed).symm

theorem Written.bind {first : Except Error α} {next : α → Except Error β} (written : Written first)
    (further : ∀ value, Written (next value)) : Written (first >>= next) := by
  cases first with
  | ok value => exact further value
  | error error =>
    obtain rfl := written error rfl
    exact written_tooLong

theorem Written.map {outcome : Except Error α} (written : Written outcome) (f : α → β) : Written (outcome.map f) := by
  cases outcome with
  | ok value => exact written_ok (f value)
  | error error =>
    obtain rfl := written error rfl
    exact written_tooLong

end Outcome

open Outcome

theorem Numeral.written_write (n : Int) : Written (write n) := by
  unfold write
  split
  · exact written_ok _
  · exact written_tooLong

namespace Value

theorem written_shownScalar (value : Value) : Written value.shownScalar := by
  cases value with
  | int n => exact Numeral.written_write n
  | object label face =>
    rw [shownScalar]
    cases face.shown with
    | none => exact written_tooLong
    | some text => exact written_ok text
  | _ => exact written_ok _

mutual

/-- A value can be shown unless there is a number in it that is too long. -/
theorem written_shown : (value : Value) → Written value.shown
  | list _ items | record _ _ items => by
    rw [shown]
    exact (written_shownItems items).bind fun _ => written_ok _
  | tuple _ items => by
    rw [shown]
    refine (written_shownItems items).bind fun parts => ?_
    split
    · exact written_ok _
    · exact written_ok _
  | dict _ entries => by
    rw [shown]
    exact (written_shownEntries entries).bind fun _ => written_ok _
  | byteArray _ _ | null | bool _ | int _ | float _ | floatNaN _ | decimal _ | decimalNaN _ _ | text _ | entry _
  | bytes _ | date _ | dateTime _ | time _ | duration _ _ _ | uuid _ | unbindable _ _ | object _ _ => by
    simpa only [shown] using written_shownScalar _

theorem written_shownItems : (items : List Value) → Written (shownItems items)
  | [] => written_ok []
  | item :: items => by
    rw [shownItems]
    exact (written_shown item).bind fun _ => (written_shownItems items).bind fun _ => written_ok _

theorem written_shownEntries : (entries : List (Value × Value)) → Written (shownEntries entries)
  | [] => written_ok []
  | (key, value) :: entries => by
    rw [shownEntries]
    exact (written_shown key).bind fun _ => (written_shown value).bind fun _ => (written_shownEntries entries).bind fun _ => written_ok _

end

theorem kindRefusal_cases (kind : Text) (value : Value) :
    (∃ shown, kindRefusal kind value.shown = .unsupportedValue kind shown) ∨
      (kindRefusal kind value.shown = .numberTooLong ∧ value.shown = .error .numberTooLong) := by
  cases showing : value.shown with
  | ok text => exact .inl ⟨text, rfl⟩
  | error error =>
    obtain rfl := written_shown value error showing
    exact .inr ⟨rfl, rfl⟩

end Value

namespace Paging

variable {paging : Paging} {line : Except Error Text}

theorem exists_of_mem_render (member : line ∈ paging.render) : ∃ (keyword : Text) (n : Nat),
    (keyword = "LIMIT " ∨ keyword = "OFFSET ") ∧ (paging.limit = some n ∨ paging.offset = some n) ∧
      line = (Numeral.write n).map (keyword ++ ·) := by
  simp only [render, List.mem_append, Option.mem_toList, Option.map_eq_some_iff] at member
  rcases member with ⟨n, set, rfl⟩ | ⟨n, set, rfl⟩
  · exact ⟨_, n, .inl rfl, .inl set, rfl⟩
  · exact ⟨_, n, .inr rfl, .inr set, rfl⟩

/-- A line that can be written is a keyword and a number. -/
theorem eq_of_mem_render {text : Text} (member : .ok text ∈ paging.render) :
    ∃ n : Nat, text = "LIMIT " ++ Text.ofNat n ∨ text = "OFFSET " ++ Text.ofNat n := by
  obtain ⟨keyword, n, known, -, shown⟩ := exists_of_mem_render member
  obtain ⟨digits, written, same⟩ := Outcome.map_eq_ok.mp shown.symm
  obtain ⟨-, rfl⟩ := Numeral.write_eq_ok.mp written
  refine ⟨n, ?_⟩
  rcases known with rfl | rfl
  · exact .inl same.symm
  · exact .inr same.symm

theorem written_of_mem_render (member : line ∈ paging.render) : Written line := by
  obtain ⟨keyword, n, -, -, shown⟩ := exists_of_mem_render member
  rw [shown]
  exact (Numeral.written_write n).map _

end Paging

/-! ### Numbers in a row -/

namespace Token

theorem mem_numbersFrom {n start : Int} {count : Nat} : n ∈ numbersFrom start count ↔ start ≤ n ∧ n < start + count := by
  induction count generalizing start with
  | zero => simp [numbersFrom]
  | succ count ih =>
    rw [numbersFrom, List.mem_cons, ih]
    push_cast
    omega

theorem check_numbersFrom {start : Int} {count : Nat} (low : 0 ≤ start) (high : start + count ≤ 10 ^ digitLimit) :
    Numeral.check (numbersFrom start count) = .ok () :=
  Numeral.check_of_writable fun _ member =>
    have ⟨least, most⟩ := mem_numbersFrom.mp member
    Numeral.writable_of_lt (low.trans least) (most.trans_le high)

theorem check_numbersFrom_of_beyond {start : Int} {count : Nat} (some : count ≠ 0) (beyond : 10 ^ digitLimit < start + count) :
    Numeral.check (numbersFrom start count) = .error .numberTooLong := by
  have last : start + count - 1 ∈ numbersFrom start count := by
    rw [mem_numbersFrom]
    omega
  exact Numeral.check_of_not_writable last (Numeral.not_writable_of_le (Int.le_sub_one_of_lt beyond))

end Token

/-! ### Markers -/

theorem bindMarkers_eq_ok {text : Text} {start : Int} {bound : Text × Int} :
    bindMarkers text start = .ok bound ↔
      (∀ n ∈ Token.numbersFrom start (Token.countMarkers text), Numeral.Writable n) ∧ boundMarkers text start = bound := by
  rw [bindMarkers, Outcome.bind_eq_ok]
  constructor
  · rintro ⟨_, checked, same⟩
    exact ⟨Numeral.check_eq_ok.mp checked, Except.ok.inj same⟩
  · rintro ⟨all, rfl⟩
    exact ⟨(), Numeral.check_of_writable all, rfl⟩

theorem bindMarkers_of_bound {text : Text} {start : Int} (low : 0 ≤ start) (high : start + Token.countMarkers text ≤ 10 ^ digitLimit) :
    bindMarkers text start = .ok (boundMarkers text start) := by
  rw [bindMarkers, Token.check_numbersFrom low high]
  rfl

theorem bindMarkers_cases (text : Text) (start : Int) :
    bindMarkers text start = .ok (boundMarkers text start) ∨ bindMarkers text start = .error .numberTooLong := by
  rcases Numeral.check_cases (Token.numbersFrom start (Token.countMarkers text)) with ⟨-, checked⟩ | ⟨-, checked⟩
  · exact .inl (by rw [bindMarkers, checked]; rfl)
  · exact .inr (by rw [bindMarkers, checked]; rfl)

namespace Predicate

/-- The text of a predicate with its markers numbered, and its values. -/
def numbered (predicate : Predicate) (start : Int) : Numbered :=
  ⟨(boundMarkers predicate.text.content start).1, predicate.values, (boundMarkers predicate.text.content start).2⟩

theorem eq_numbered_of_render {predicate : Predicate} {start : Int} {rendered : Numbered} (done : predicate.render start = .ok rendered) :
    rendered = predicate.numbered start := by
  obtain ⟨bound, bounded, same⟩ := Outcome.map_eq_ok.mp done
  obtain ⟨-, rfl⟩ := bindMarkers_eq_ok.mp bounded
  exact same.symm

theorem render_of_bound {predicate : Predicate} {start : Int} (low : 0 ≤ start)
    (high : start + Token.countMarkers predicate.text.content ≤ 10 ^ digitLimit) :
    predicate.render start = .ok (predicate.numbered start) := by
  rw [render, bindMarkers_of_bound low high]
  rfl

theorem render_cases (predicate : Predicate) (start : Int) :
    predicate.render start = .ok (predicate.numbered start) ∨ predicate.render start = .error .numberTooLong := by
  rcases bindMarkers_cases predicate.text.content start with bound | failed
  · exact .inl (by rw [render, bound]; rfl)
  · exact .inr (by rw [render, failed]; rfl)

end Predicate

end SqlCompose
