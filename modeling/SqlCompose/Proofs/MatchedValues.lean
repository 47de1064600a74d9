import Mathlib
import SqlCompose.Proofs.Merging

/-!
# Fragments whose placeholders match their values

A fragment is ill matched if one of its placeholders belongs to no value, or one of its values to no placeholder. Renumbering looks at the highest number only. So it refuses every placeholder beyond the last value, and a last value without a placeholder, and nothing else: a nought among the numbers and a value that is passed over are not seen. `renumber_refuses` says exactly which fragments are refused and when these are the ill-matched ones.
-/

namespace SqlCompose

namespace Fragment

variable {fragment : Fragment} {start : Int}

/-- Some placeholder is outside the numbers of the values, or the number of some value is on no placeholder. -/
def IllMatched (fragment : Fragment) : Prop :=
  (∃ n ∈ fragment.indices, n < 1 ∨ fragment.values.length < n) ∨
    ∃ n, 1 ≤ n ∧ n ≤ fragment.values.length ∧ n ∉ fragment.indices

/-- What is looked at: a placeholder beyond the last value, or a last value that no placeholder has. -/
def Exceeded (fragment : Fragment) : Prop :=
  (∃ n ∈ fragment.indices, fragment.values.length < n) ∨
    (fragment.values ≠ [] ∧ fragment.values.length ∉ fragment.indices)

/-- The highest placeholder is the last value's unless some placeholder is beyond it or it has none itself. -/
theorem not_fits_iff : ¬ fragment.Fits ↔ fragment.Exceeded := by
  unfold Fits Exceeded
  constructor
  · intro misfits
    rcases highest_mem_or_zero fragment.indices with member | none
    · rcases Nat.lt_or_gt_of_ne misfits with short | beyond
      · refine .inr ⟨by intro empty; simp [empty] at short, fun last => ?_⟩
        have reached := le_highest last
        omega
      · exact .inl ⟨_, member, beyond⟩
    · rw [none] at misfits
      refine .inr ⟨by intro empty; simp [empty] at misfits, fun last => ?_⟩
      have reached := le_highest last
      omega
  · rintro (⟨n, member, beyond⟩ | ⟨some, missing⟩) fits
    · have reached := le_highest member
      omega
    · rcases highest_mem_or_zero fragment.indices with member | none
      · exact missing (fits ▸ member)
      · rw [fits] at none
        exact some (List.length_eq_zero_iff.mp none)

theorem illMatched_of_exceeded (exceeded : fragment.Exceeded) : fragment.IllMatched := by
  rcases exceeded with ⟨n, member, beyond⟩ | ⟨some, missing⟩
  · exact .inl ⟨n, member, .inr beyond⟩
  · exact .inr ⟨_, List.length_pos_of_ne_nil some, Nat.le_refl _, missing⟩

theorem mismatch_iff : (∃ text found given, fragment.renumber start = .error (.mismatch text found given)) ↔
    Token.Readable fragment.text.content ∧ fragment.Exceeded := by
  by_cases readable : Token.Readable fragment.text.content
  · by_cases fits : fragment.Fits
    · rcases renumber_cases ⟨readable, fits⟩ start with done | long
      · simp [done, ← not_fits_iff, fits]
      · simp [long, ← not_fits_iff, fits]
    · rw [renumber_of_not_fits readable fits]
      exact ⟨fun _ => ⟨readable, not_fits_iff.mp fits⟩, fun _ => ⟨_, _, _, rfl⟩⟩
  · obtain ⟨_, _, fails⟩ := renumber_of_not_readable readable
    rw [fails]
    simp [readable]

/-- Every number lies from a start on among as many as there are values, and each of these is there. -/
def Fills (numbers : List Nat) (start : Int) (count : Nat) : Prop :=
  (∀ n ∈ numbers, start ≤ n ∧ n < start + count) ∧ ∀ k < count, ∃ n ∈ numbers, (n : Int) = start + k

theorem fills_iff {offset : Nat} : Fills (fragment.indices.map (· + offset)) (1 + offset) fragment.values.length ↔
    ¬ fragment.IllMatched := by
  unfold Fills IllMatched
  constructor
  · rintro ⟨inside, reached⟩ (⟨n, member, outside⟩ | ⟨n, low, high, missing⟩)
    · have bounds := inside _ (List.mem_map_of_mem member)
      omega
    · obtain ⟨_, moved, same⟩ := reached (n - 1) (by omega)
      obtain ⟨m, member, rfl⟩ := List.mem_map.mp moved
      obtain rfl : m = n := by omega
      exact missing member
  · intro matched
    refine ⟨List.forall_mem_map.mpr fun n member => ?_, fun k small => ?_⟩
    · have bounds : ¬ (n < 1 ∨ fragment.values.length < n) := fun outside => matched (.inl ⟨n, member, outside⟩)
      omega
    · have member : k + 1 ∈ fragment.indices := by
        by_contra missing
        exact matched (.inr ⟨k + 1, by omega, by omega, missing⟩)
      exact ⟨k + 1 + offset, List.mem_map_of_mem member, by omega⟩

/-- Renumbering refuses a readable fragment if some placeholder is beyond the last value or the last value has no placeholder. It refuses just the ill-matched fragments if no ill-matched one is among those whose highest placeholder belongs to the last value. Where it does not refuse, it gives a result just if no number gets too many digits to be written. What it gives stays below the number behind its values; it lies among the numbers of the values, and refers to all of them, just if the fragment was not ill matched. -/
theorem renumber_refuses (fragment : Fragment) (start : Int) (positive : 1 ≤ start) :
    ((∃ text found given, fragment.renumber start = .error (.mismatch text found given)) ↔
      Token.Readable fragment.text.content ∧ fragment.Exceeded) ∧
    (((∃ text found given, fragment.renumber start = .error (.mismatch text found given)) ↔ fragment.IllMatched) ↔
      (fragment.IllMatched → Token.Readable fragment.text.content ∧ fragment.Exceeded)) ∧
    (Token.Readable fragment.text.content → ¬ fragment.Exceeded →
      ((∃ numbered, fragment.renumber start = .ok numbered) ↔
        fragment.indices = [] ∨ start + fragment.values.length ≤ 10 ^ Numeral.digitLimit)) ∧
    ∀ numbered, fragment.renumber start = .ok numbered →
      (∀ n ∈ Token.placeholders numbered.text.content, (n : Int) < start + fragment.values.length) ∧
      (Fills (Token.placeholders numbered.text.content) start fragment.values.length ↔ ¬ fragment.IllMatched) := by
  refine ⟨mismatch_iff, ?_, ?_, ?_⟩
  · rw [mismatch_iff]
    exact ⟨Iff.mpr, fun found => ⟨fun refused => illMatched_of_exceeded refused.2, found⟩⟩
  · intro readable within
    have sound : fragment.Sound := ⟨readable, not_not.mp fun misfits => within (not_fits_iff.mp misfits)⟩
    constructor
    · rintro ⟨numbered, done⟩
      by_contra beyond
      rw [not_or, not_le] at beyond
      cases done.symm.trans (renumber_of_beyond sound beyond.1 beyond.2)
    · rintro (none | few)
      · exact ⟨_, renumber_of_no_indices sound none start⟩
      · exact ⟨_, renumber_of_sound sound positive few⟩
  · intro numbered done
    obtain ⟨sound, -, rfl⟩ := renumber_eq_ok.mp done
    obtain ⟨offset, rfl⟩ : ∃ offset : Nat, start = 1 + offset := ⟨(start - 1).toNat, by omega⟩
    rw [(raised_shiftedText fragment offset).numbers]
    refine ⟨List.forall_mem_map.mpr fun n member => ?_, fills_iff⟩
    have low : n ≤ fragment.values.length := sound.fits ▸ le_highest member
    omega

/-- A placeholder beyond the last value is refused. -/
theorem renumber_refuses_beyond : (1 : Int) ≤ 4 ∧
    ∃ text found given, renumber ⟨.plain "a = $2 OR '$1' = $3", [.int 5, .int 6]⟩ 4 = .error (.mismatch text found given) := by
  refine ⟨by decide, (renumber_refuses _ 4 (by decide)).1.mpr ⟨by decide +kernel, .inl ⟨3, by decide +kernel, by decide⟩⟩⟩

/-- A value between others that no placeholder has is not seen, and neither is a placeholder with nought. -/
theorem renumber_passes_gap :
    IllMatched ⟨.plain "a = $1 AND c = $3", [.int 1, .int 2, .int 3]⟩ ∧
    (∃ numbered, renumber ⟨.plain "a = $1 AND c = $3", [.int 1, .int 2, .int 3]⟩ 4 = .ok numbered) ∧
    IllMatched ⟨.plain "a = $0 AND b = $1", [.int 1]⟩ ∧
    ∃ numbered, renumber ⟨.plain "a = $0 AND b = $1", [.int 1]⟩ 4 = .ok numbered ∧
      Token.placeholders numbered.text.content = [3, 4] := by
  have gap : Sound ⟨.plain "a = $1 AND c = $3", [.int 1, .int 2, .int 3]⟩ := ⟨by decide +kernel, by decide +kernel⟩
  have nought : Sound ⟨.plain "a = $0 AND b = $1", [.int 1]⟩ := ⟨by decide +kernel, by decide +kernel⟩
  refine ⟨.inr ⟨2, by decide, by decide, by decide +kernel⟩, ⟨_, renumber_of_sound gap (by decide) (by decide +kernel)⟩,
    .inl ⟨0, by decide +kernel, by decide⟩, ?_⟩
  exact ⟨_, renumber_of_sound nought (by decide) (by decide +kernel), by decide +kernel⟩

end Fragment

end SqlCompose
