import Mathlib
import SqlCompose.Compaction
import SqlCompose.Proofs.Merging
import SqlCompose.Proofs.ValueEquality

/-!
# Compaction keeps the meaning

Compaction goes through the placeholders once, and for each number it has not met it looks for a value kept before. Afterwards every placeholder is on the value it was on or on one that counts as the same, two placeholders share a number exactly if they must, the numbers appear in order, and nothing is left to compact. The loop is described by `Progress`, which every placeholder keeps.
-/

namespace SqlCompose

/-! ### Which values count as the same -/

/-- The values that some values hold, at any depth, and these values themselves. -/
inductive Value.Part (roots : List Value) : Value → Prop
  | root {value : Value} (member : value ∈ roots) : Part roots value
  | child {value child : Value} (part : Part roots value) (member : child ∈ value.children) : Part roots child

namespace Sameness

/-- The two senses: one object, or equal keys of one type whose times of day name the same moments; equal values of one type. -/
def Equal : Sameness → Value → Value → Prop
  | shallow, left, right => left.identical right = true ∨
      (left.hashable = true ∧ right.hashable = true ∧ left.typeName = right.typeName ∧ left.equal right = some true ∧
        left.keyedAlike right = true)
  | deep, left, right => left.typeName = right.typeName ∧ left.equal right = some true

variable {present : Value → Prop}

theorem holds_eq_true (heap : Value.Heap present) (sameness : Sameness) {left right : Value} (here : present left)
    (there : present right) : sameness.holds left right = some true ↔ sameness.Equal left right := by
  cases sameness with
  | deep =>
    by_cases types : left.typeName = right.typeName <;> simp [holds, Equal, types]
  | shallow =>
    constructor
    · intro held
      by_cases types : left.typeName = right.typeName
      · by_cases keys : left.hashable = true ∧ right.hashable = true
        · have one : left.same right = true := by simpa [holds, types, keys] using held
          rcases Value.same_iff.mp one with object | ⟨equal, alike⟩
          · exact .inl object
          · exact .inr ⟨keys.1, keys.2, types, equal, alike⟩
        · have object : left.identical right = true := by
            have unkeyed : (left.hashable && right.hashable) = false := by simpa using keys
            simpa [holds, types, unkeyed] using held
          exact .inl object
      · simp [holds, types] at held
    · rintro (object | ⟨key, key', types, equal, alike⟩)
      · have object' := object
        obtain rfl := heap.oneObject here there object
        simp [holds, Value.same, object']
      · simp [holds, types, key, key', Value.same, equal, alike]

theorem equivalence (heap : Value.Heap present) (sameness : Sameness) : PartialEquivalence present sameness.Equal := by
  have values := Value.equal_equivalence heap
  have keys := Value.same_equivalence heap
  cases sameness with
  | deep =>
    constructor
    · rintro a b here there ⟨types, equal⟩
      exact ⟨types.symm, values.symm here there equal⟩
    · rintro a b c here there yonder ⟨types, equal⟩ ⟨types', equal'⟩
      exact ⟨types.trans types', values.trans here there yonder equal equal'⟩
  | shallow =>
    constructor
    · rintro a b here there (object | ⟨key, key', types, equal, alike⟩)
      · exact .inl (Value.identical_symm object)
      · exact .inr ⟨key', key, types.symm, values.symm here there equal, by rw [Value.keyedAlike_comm, alike]⟩
    · rintro a b c here there yonder first second
      rcases first with object | ⟨key, middle, types, equal, alike⟩
      · rw [heap.oneObject here there object]
        exact second
      · rcases second with object | ⟨_, key', types', equal', alike'⟩
        · rw [← heap.oneObject there yonder object]
          exact .inr ⟨key, middle, types, equal, alike⟩
        · have one := keys.trans here there yonder (Value.same_iff.mpr (.inr ⟨equal, alike⟩))
            (Value.same_iff.mpr (.inr ⟨equal', alike'⟩))
          refine .inr ⟨key, key', types.trans types', values.trans here there yonder equal equal', ?_⟩
          exact ((Value.same_iff_itemEqual heap here yonder).mp one).2

theorem holds_shallow_ne_none (left right : Value) : shallow.holds left right ≠ none := by
  by_cases types : left.typeName = right.typeName
  · rw [holds, if_pos types]
    by_cases keys : (left.hashable && right.hashable) = true <;> simp [keys]
  · simp [holds, types]

theorem holds_ne_none (closed : ∀ {value child}, present value → child ∈ value.children → present child)
    (quiet : ∀ value, present value → value.isSignalling = false) (sameness : Sameness) {left right : Value}
    (here : present left) (there : present right) : sameness.holds left right ≠ none := by
  cases sameness with
  | shallow => exact holds_shallow_ne_none left right
  | deep =>
    by_cases types : left.typeName = right.typeName
    · rw [holds, if_pos types]
      exact Value.equal_ne_none closed quiet here there
    · simp [holds, types]

/-- What is found is the first of the values that is the same. -/
theorem place?_eq_some {sameness : Sameness} {value : Value} {kept : List Value} {place : Nat}
    (found : sameness.place? value kept = .ok (some place)) :
    ∃ same, kept[place]? = some same ∧ sameness.holds same value = some true := by
  induction kept generalizing place with
  | nil => cases found
  | cons first rest ih =>
    rw [place?] at found
    split at found
    · cases found
    · next held =>
      obtain rfl : 0 = place := by simpa using found
      exact ⟨first, rfl, held⟩
    · obtain ⟨inner, further, shown⟩ := Outcome.map_eq_ok.mp found
      cases inner with
      | none => cases shown
      | some i =>
        obtain rfl : i + 1 = place := by simpa using shown
        simpa using ih further

theorem place?_eq_none {sameness : Sameness} {value : Value} {kept : List Value} :
    sameness.place? value kept = .ok none ↔ ∀ other ∈ kept, sameness.holds other value = some false := by
  induction kept with
  | nil => simp [place?]
  | cons first rest ih =>
    rw [place?, List.forall_mem_cons, ← ih]
    cases held : sameness.holds first value with
    | none => simp
    | some one =>
      cases one with
      | true => simp
      | false =>
        constructor
        · intro found
          obtain ⟨inner, further, shown⟩ := Outcome.map_eq_ok.mp found
          cases inner with
          | none => exact ⟨rfl, further⟩
          | some i => cases shown
        · rintro ⟨_, further⟩
          simp [further, Except.map]

theorem place?_total {sameness : Sameness} {value : Value} {kept : List Value}
    (answers : ∀ other ∈ kept, sameness.holds other value ≠ none) : ∃ found, sameness.place? value kept = .ok found := by
  induction kept with
  | nil => exact ⟨none, rfl⟩
  | cons first rest ih =>
    obtain ⟨found, further⟩ := ih fun other member => answers other (List.mem_cons_of_mem _ member)
    rw [place?]
    cases held : sameness.holds first value with
    | none => exact absurd held (answers first (by simp))
    | some one =>
      cases one with
      | true => exact ⟨_, rfl⟩
      | false =>
        rw [further]
        exact ⟨_, rfl⟩

end Sameness

namespace Compaction

/-! ### The loop -/

/-- The number that a placeholder has in the end. -/
def State.number (state : State) (old : Nat) : Nat :=
  (state.numbers.lookup old).getD old

/-- The number of a placeholder belongs to a value of the fragment. -/
def InRange (fragment : Fragment) (old : Nat) : Prop :=
  1 ≤ old ∧ old ≤ fragment.values.length

/-- What the loop has done when it has seen some placeholders: the kept values, each taken from an origin among them, are pairwise different, every placeholder points at the kept value that is its own or the same, and the numbers were given out in order. -/
structure Progress (sameness : Sameness) (fragment : Fragment) (state : State) (origins seen : List Nat) : Prop where
  known : ∀ old, (state.numbers.lookup old).isSome = true ↔ old ∈ seen
  inRange : ∀ old ∈ seen, InRange fragment old
  created : origins.map (fun old => fragment.values[old - 1]?) = state.kept.map some
  points : ∀ old ∈ seen, 1 ≤ state.number old ∧ state.number old ≤ state.kept.length ∧
    (origins[state.number old - 1]? = some old ∨ ∃ kept value, state.kept[state.number old - 1]? = some kept ∧
      fragment.values[old - 1]? = some value ∧ sameness.holds kept value = some true)
  apart : state.kept.Pairwise fun kept kept' => sameness.holds kept kept' = some false
  order : (seen.map state.number).eraseDups = List.range' 1 state.kept.length

variable {sameness : Sameness} {fragment : Fragment} {state : State} {origins seen : List Nat}

theorem progress_start (sameness : Sameness) (fragment : Fragment) : Progress sameness fragment {} [] [] := by
  constructor <;> simp

theorem Progress.length (progress : Progress sameness fragment state origins seen) : origins.length = state.kept.length := by
  have lengths := congrArg List.length progress.created
  simpa using lengths

theorem Progress.kept_mem (progress : Progress sameness fragment state origins seen) {kept : Value}
    (member : kept ∈ state.kept) : kept ∈ fragment.values := by
  have image : some kept ∈ origins.map fun old => fragment.values[old - 1]? := by
    rw [progress.created]
    exact List.mem_map_of_mem member
  obtain ⟨old, _, here⟩ := List.mem_map.mp image
  exact List.mem_of_getElem? here

/-- The value of an origin is the one kept in its place. -/
theorem Progress.kept_origin (progress : Progress sameness fragment state origins seen) {place old : Nat}
    (origin : origins[place]? = some old) : fragment.values[old - 1]? = state.kept[place]? := by
  have here := congrArg (fun values => values[place]?) progress.created
  simp only [List.getElem?_map, origin, Option.map_some] at here
  cases kept : state.kept[place]? with
  | none => simp [kept] at here
  | some value => simpa [kept] using here

/-- One more placeholder that is numbered for the first time; the others stay where they were. -/
private theorem Progress.add (progress : Progress sameness fragment state origins seen) {old : Nat} (fresh : old ∉ seen)
    (inRange : InRange fragment old) (new : Nat) (values : List Value) (more : List Nat)
    (created : more.map (fun old => fragment.values[old - 1]?) = values.map some)
    (points : 1 ≤ new ∧ new ≤ (state.kept ++ values).length ∧
      ((origins ++ more)[new - 1]? = some old ∨ ∃ kept value, (state.kept ++ values)[new - 1]? = some kept ∧
        fragment.values[old - 1]? = some value ∧ sameness.holds kept value = some true))
    (apart : (state.kept ++ values).Pairwise fun kept kept' => sameness.holds kept kept' = some false)
    (order : (seen.map state.number ++ [new]).eraseDups = List.range' 1 (state.kept ++ values).length) :
    Progress sameness fragment ⟨state.kept ++ values, (old, new) :: state.numbers⟩ (origins ++ more) (seen ++ [old]) := by
  have here : State.number ⟨state.kept ++ values, (old, new) :: state.numbers⟩ old = new := by simp [State.number]
  have there : ∀ other ∈ seen, State.number ⟨state.kept ++ values, (old, new) :: state.numbers⟩ other = state.number other := by
    intro other member
    have ne : (other == old) = false := by
      simp only [beq_eq_false_iff_ne]
      rintro rfl
      exact fresh member
    simp [State.number, List.lookup_cons, ne]
  refine ⟨?_, ?_, ?_, ?_, apart, ?_⟩
  · intro other
    rw [List.lookup_cons]
    by_cases same : other = old
    · simp [same]
    · have ne : (other == old) = false := by simpa using same
      simp [ne, same, progress.known other]
  · intro other member
    rcases List.mem_append.mp member with earlier | last
    · exact progress.inRange other earlier
    · rw [List.mem_singleton.mp last]
      exact inRange
  · rw [List.map_append, List.map_append, progress.created, created]
  · intro other member
    rcases List.mem_append.mp member with earlier | last
    · rw [there other earlier]
      obtain ⟨low, high, pointed⟩ := progress.points other earlier
      have length : (state.kept ++ values).length = state.kept.length + values.length := List.length_append
      have stays : (state.kept ++ values)[state.number other - 1]? = state.kept[state.number other - 1]? :=
        List.getElem?_append_left (by omega)
      have origin : (origins ++ more)[state.number other - 1]? = origins[state.number other - 1]? :=
        List.getElem?_append_left (by rw [progress.length]; omega)
      rw [stays, origin]
      exact ⟨low, Nat.le_trans high (by simp), pointed⟩
    · rw [List.mem_singleton.mp last, here]
      exact points
  · rw [List.map_append, List.map_singleton, here, List.map_congr_left there]
    exact order

private theorem eraseDups_concat_old {numbers : List Nat} {n : Nat} (member : n ∈ numbers) :
    (numbers ++ [n]).eraseDups = numbers.eraseDups := by
  rw [List.eraseDups_append, List.removeAll]
  simp [member]

private theorem eraseDups_concat_new {numbers : List Nat} {n : Nat} (fresh : n ∉ numbers) :
    (numbers ++ [n]).eraseDups = numbers.eraseDups ++ [n] := by
  rw [List.eraseDups_append, List.removeAll]
  simp [fresh, List.eraseDups_cons]

private theorem mem_numbers (progress : Progress sameness fragment state origins seen) {n : Nat} :
    n ∈ seen.map state.number ↔ 1 ≤ n ∧ n ≤ state.kept.length := by
  rw [← List.mem_eraseDups, progress.order, List.mem_range'_1]
  omega

/-- A placeholder whose value is the same as a kept one. -/
private theorem Progress.join (progress : Progress sameness fragment state origins seen) {old : Nat} (fresh : old ∉ seen)
    (inRange : InRange fragment old) {value : Value} (here : fragment.values[old - 1]? = some value) {place : Nat}
    (found : sameness.place? value state.kept = .ok (some place)) :
    Progress sameness fragment { state with numbers := (old, place + 1) :: state.numbers } origins (seen ++ [old]) := by
  obtain ⟨kept, there, held⟩ := Sameness.place?_eq_some found
  have inside : place < state.kept.length := by
    by_contra beyond
    rw [List.getElem?_eq_none (by omega)] at there
    cases there
  have joined := progress.add fresh inRange (place + 1) [] [] rfl ?_ ?_ ?_
  · simpa using joined
  · refine ⟨by omega, by simp; omega, .inr ⟨kept, value, ?_, here, held⟩⟩
    simpa using there
  · simpa using progress.apart
  · rw [eraseDups_concat_old ((mem_numbers progress).mpr (by omega)), progress.order, List.append_nil]

private theorem Progress.keep (progress : Progress sameness fragment state origins seen) {old : Nat} (fresh : old ∉ seen)
    (inRange : InRange fragment old) {value : Value} (here : fragment.values[old - 1]? = some value)
    (found : sameness.place? value state.kept = .ok none) :
    Progress sameness fragment ⟨state.kept ++ [value], (old, state.kept.length + 1) :: state.numbers⟩ (origins ++ [old])
      (seen ++ [old]) := by
  have different := Sameness.place?_eq_none.mp found
  refine progress.add fresh inRange (state.kept.length + 1) [value] [old] ?_ ?_ ?_ ?_
  · simp [here]
  · refine ⟨by omega, by simp, .inl ?_⟩
    rw [Nat.add_sub_cancel, ← progress.length]
    simp
  · refine List.pairwise_append.mpr ⟨progress.apart, List.pairwise_singleton _ _, ?_⟩
    intro kept member other last
    rw [List.mem_singleton.mp last]
    exact different kept member
  · have unused : state.kept.length + 1 ∉ seen.map state.number := by
      rw [mem_numbers progress]
      omega
    rw [eraseDups_concat_new unused, progress.order, List.length_append, List.length_singleton, List.range'_concat]
    simp [Nat.add_comm]

private theorem Progress.again (progress : Progress sameness fragment state origins seen) {old : Nat} (met : old ∈ seen) :
    Progress sameness fragment state origins (seen ++ [old]) := by
  have members : ∀ n, n ∈ seen ++ [old] ↔ n ∈ seen := by
    intro n
    rw [List.mem_append, List.mem_singleton]
    exact ⟨fun either => either.elim id fun same => same ▸ met, .inl⟩
  refine ⟨?_, ?_, progress.created, ?_, progress.apart, ?_⟩
  · intro n
    rw [members, progress.known]
  · intro n member
    exact progress.inRange n ((members n).mp member)
  · intro n member
    exact progress.points n ((members n).mp member)
  · rw [List.map_append, List.map_singleton, eraseDups_concat_old (List.mem_map_of_mem met), progress.order]

theorem step_of_mem (progress : Progress sameness fragment state origins seen) {old : Nat} (met : old ∈ seen) :
    step sameness fragment state old = .ok state := by
  rw [step, if_pos ((progress.known old).mpr met)]

theorem step_of_not_inRange {old : Nat} (progress : Progress sameness fragment state origins seen)
    (outside : ¬ InRange fragment old) : step sameness fragment state old = .error (fragment.misfit old) := by
  have fresh : ¬ (state.numbers.lookup old).isSome = true := fun met => outside (progress.inRange old ((progress.known old).mp met))
  rw [step, if_neg fresh]
  by_cases nought : old = 0
  · rw [if_pos nought]
  · rw [if_neg nought, List.getElem?_eq_none (by simp only [InRange, not_and_or] at outside; omega)]

section Run

variable (answers : ∀ kept ∈ fragment.values, ∀ value ∈ fragment.values, sameness.holds kept value ≠ none)
include answers

theorem exists_step (progress : Progress sameness fragment state origins seen) {old : Nat} (inRange : InRange fragment old) :
    ∃ state' origins', step sameness fragment state old = .ok state' ∧
      Progress sameness fragment state' origins' (seen ++ [old]) := by
  by_cases met : old ∈ seen
  · exact ⟨state, origins, step_of_mem progress met, progress.again met⟩
  · have fresh : ¬ (state.numbers.lookup old).isSome = true := fun known => met ((progress.known old).mp known)
    obtain ⟨low, high⟩ := inRange
    have here : fragment.values[old - 1]? = some fragment.values[old - 1] := List.getElem?_eq_getElem (by omega)
    have nonzero : old ≠ 0 := by omega
    obtain ⟨found, searched⟩ := Sameness.place?_total fun kept member =>
      answers kept (progress.kept_mem member) fragment.values[old - 1] (List.getElem_mem _)
    cases found with
    | some place =>
      refine ⟨_, _, ?_, progress.join met ⟨low, high⟩ here searched⟩
      rw [step, if_neg fresh, if_neg nonzero, here]
      simp [searched]
    | none =>
      refine ⟨_, _, ?_, progress.keep met ⟨low, high⟩ here searched⟩
      rw [step, if_neg fresh, if_neg nonzero, here]
      simp [searched]

/-- The loop comes to its end, or fails at a placeholder out of range. -/
theorem run_cases (progress : Progress sameness fragment state origins seen) (indices : List Nat) :
    ((∀ old ∈ indices, InRange fragment old) ∧ ∃ state' origins',
      indices.foldlM (step sameness fragment) state = .ok state' ∧
        Progress sameness fragment state' origins' (seen ++ indices)) ∨
    ∃ old ∈ indices, ¬ InRange fragment old ∧ indices.foldlM (step sameness fragment) state = .error (fragment.misfit old) := by
  induction indices generalizing state origins seen with
  | nil => exact .inl ⟨by simp, state, origins, rfl, by simpa using progress⟩
  | cons old rest ih =>
    rw [List.foldlM_cons]
    by_cases inRange : InRange fragment old
    · obtain ⟨state', origins', stepped, further⟩ := exists_step answers progress inRange
      rw [stepped, Outcome.bind_ok]
      rcases ih further with ⟨all, final, origins'', ran, done⟩ | ⟨wrong, member, outside, failed⟩
      · refine .inl ⟨by simpa [inRange] using all, final, origins'', ran, ?_⟩
        simpa using done
      · exact .inr ⟨wrong, List.mem_cons_of_mem _ member, outside, failed⟩
    · refine .inr ⟨old, by simp, inRange, ?_⟩
      rw [step_of_not_inRange progress inRange, Outcome.bind_error]

end Run

/-! ### A second time -/

private theorem eraseDups_first_new {seen : List Nat} {old : Nat} (fresh : old ∉ seen) (rest : List Nat) :
    ∃ later, (seen ++ old :: rest).eraseDups = seen.eraseDups ++ old :: later := by
  rw [List.eraseDups_append, List.removeAll, List.filter_cons_of_pos (by simpa using fresh), List.eraseDups_cons]
  exact ⟨_, rfl⟩

/-- Where no two values are the same and the numbers come in order, every number is given out again as it was. -/
theorem run_again {values : List Value} {text : Wording}
    (apart : values.Pairwise fun kept kept' => sameness.holds kept kept' = some false) {seen rest : List Nat}
    (order : (seen ++ rest).eraseDups = List.range' 1 values.length) {met : Nat}
    (sofar : seen.eraseDups = List.range' 1 met) {state : State} (kept : state.kept = values.take met)
    (numbers : ∀ old, state.numbers.lookup old = if old ∈ seen then some old else none) :
    ∃ state', rest.foldlM (step sameness ⟨text, values⟩) state = .ok state' ∧ state'.kept = values ∧
      ∀ old, state'.number old = old := by
  induction rest generalizing seen met state with
  | nil =>
    rw [List.append_nil, sofar] at order
    have all : met = values.length := by simpa using congrArg List.length order
    refine ⟨state, rfl, by rw [kept, all, List.take_length], ?_⟩
    intro old
    rw [State.number, numbers]
    split <;> rfl
  | cons old rest ih =>
    rw [List.foldlM_cons]
    have append : seen ++ old :: rest = (seen ++ [old]) ++ rest := by simp
    by_cases known : old ∈ seen
    · have stepped : step sameness ⟨text, values⟩ state old = .ok state := by
        rw [step, if_pos (by simp [numbers, known])]
      rw [stepped, Outcome.bind_ok]
      refine ih (by rw [← append, order]) (by rw [eraseDups_concat_old known, sofar]) kept ?_
      intro other
      rw [numbers]
      by_cases same : other = old
      · simp [same, known]
      · simp [same]
    · -- The first number not met before is the next one in order.
      obtain ⟨later, first⟩ := eraseDups_first_new known rest
      rw [order, sofar] at first
      have next : (List.range' 1 values.length)[met]? = some old := by
        rw [first, List.getElem?_append_right (by simp)]
        simp
      have room : met < values.length := by
        by_contra beyond
        rw [List.getElem?_eq_none (by simp; omega)] at next
        cases next
      obtain rfl : met + 1 = old := by
        rw [List.getElem?_range' (by omega)] at next
        have same := Option.some.inj next
        omega
      have different : sameness.place? values[met] state.kept = .ok none := by
        rw [Sameness.place?_eq_none, kept]
        intro other member
        obtain ⟨i, below, rfl⟩ := List.mem_iff_getElem.mp member
        rw [List.getElem_take]
        rw [List.length_take] at below
        exact List.pairwise_iff_getElem.mp apart i met (by omega) room (by omega)
      have length : state.kept.length = met := by
        rw [kept, List.length_take]
        omega
      have stepped : step sameness ⟨text, values⟩ state (met + 1) =
          .ok ⟨state.kept ++ [values[met]], (met + 1, state.kept.length + 1) :: state.numbers⟩ := by
        rw [step, if_neg (by simp [numbers, known]), if_neg (by omega), Nat.add_sub_cancel, List.getElem?_eq_getElem room]
        simp [different]
      rw [stepped, Outcome.bind_ok]
      have later : (seen ++ [met + 1]).eraseDups = List.range' 1 (met + 1) := by
        rw [eraseDups_concat_new known, sofar, List.range'_concat]
        simp [Nat.add_comm]
      refine ih (by rw [← append, order]) later ?_ ?_
      · rw [kept, List.take_append_getElem room]
      · intro other
        rw [List.lookup_cons, length]
        by_cases same : other = met + 1
        · simp [same]
        · have ne : (other == met + 1) = false := by simpa using same
          simp [ne, same, numbers]

/-! ### What the loop leaves behind -/

section Outcome

variable {present : Value → Prop} (heap : Value.Heap present) (inside : ∀ value ∈ fragment.values, present value)
include heap inside

/-- The value kept for a placeholder: its own, or one that is the same. -/
private theorem Progress.kept_for (progress : Progress sameness fragment state origins seen) {old : Nat} (met : old ∈ seen) :
    ∃ kept value, state.kept[state.number old - 1]? = some kept ∧ fragment.values[old - 1]? = some value ∧
      present kept ∧ present value ∧
      ((origins[state.number old - 1]? = some old ∧ kept = value) ∨ sameness.Equal kept value) := by
  obtain ⟨low, high, origin | ⟨kept, value, there, here, held⟩⟩ := progress.points old met
  · have there : state.kept[state.number old - 1]? = some state.kept[state.number old - 1] := List.getElem?_eq_getElem (by omega)
    have here := (progress.kept_origin origin).trans there
    have known := inside _ (List.mem_of_getElem? here)
    exact ⟨_, _, there, here, known, known, .inl ⟨origin, rfl⟩⟩
  · have known := inside kept (progress.kept_mem (List.mem_of_getElem? there))
    have known' := inside value (List.mem_of_getElem? here)
    exact ⟨kept, value, there, here, known, known', .inr ((Sameness.holds_eq_true heap sameness known known').mp held)⟩

private theorem Progress.place_unique (progress : Progress sameness fragment state origins seen) {i j : Nat} {kept kept' : Value}
    (here : state.kept[i]? = some kept) (there : state.kept[j]? = some kept') (same : sameness.Equal kept kept') : i = j := by
  have clash : ∀ {i j : Nat} {kept kept' : Value}, state.kept[i]? = some kept → state.kept[j]? = some kept' →
      sameness.Equal kept kept' → ¬ i < j := by
    intro i j kept kept' here there same before
    obtain ⟨inI, rfl⟩ := List.getElem?_eq_some_iff.mp here
    obtain ⟨inJ, rfl⟩ := List.getElem?_eq_some_iff.mp there
    have apart := List.pairwise_iff_getElem.mp progress.apart i j inI inJ before
    have held := (Sameness.holds_eq_true heap sameness (inside _ (progress.kept_mem (List.getElem_mem inI)))
      (inside _ (progress.kept_mem (List.getElem_mem inJ)))).mpr same
    rw [apart] at held
    cases held
  have known := inside kept (progress.kept_mem (List.mem_of_getElem? here))
  have known' := inside kept' (progress.kept_mem (List.mem_of_getElem? there))
  have back := (Sameness.equivalence heap sameness).symm known known' same
  have first := clash here there same
  have second := clash there here back
  omega

/-- Two placeholders get one number exactly if they had one or their values are the same. -/
theorem Progress.number_eq_iff (progress : Progress sameness fragment state origins seen) {p q : Nat} (left : p ∈ seen)
    (right : q ∈ seen) :
    state.number p = state.number q ↔ p = q ∨ ∃ value value', fragment.values[p - 1]? = some value ∧
      fragment.values[q - 1]? = some value' ∧ sameness.Equal value value' := by
  have equivalence := Sameness.equivalence heap sameness
  obtain ⟨kept, value, there, here, keptKnown, known, own⟩ := progress.kept_for heap inside left
  obtain ⟨kept', value', there', here', keptKnown', known', own'⟩ := progress.kept_for heap inside right
  constructor
  · intro one
    rw [one, there'] at there
    obtain rfl := Option.some.inj there
    rcases own with ⟨origin, rfl⟩ | same
    · rcases own' with ⟨origin', rfl⟩ | same'
      · rw [one, origin'] at origin
        exact .inl (Option.some.inj origin).symm
      · exact .inr ⟨_, value', here, here', same'⟩
    · rcases own' with ⟨_, rfl⟩ | same'
      · exact .inr ⟨value, _, here, here', equivalence.symm keptKnown known same⟩
      · exact .inr ⟨value, value', here, here',
          equivalence.trans known keptKnown known' (equivalence.symm keptKnown known same) same'⟩
  · rintro (rfl | ⟨v, v', shown, shown', same⟩)
    · rfl
    · obtain rfl := Option.some.inj (here.symm.trans shown)
      obtain rfl := Option.some.inj (here'.symm.trans shown')
      have first : sameness.Equal kept value' := by
        rcases own with ⟨_, rfl⟩ | related
        · exact same
        · exact equivalence.trans keptKnown known known' related same
      have both : sameness.Equal kept kept' := by
        rcases own' with ⟨_, rfl⟩ | related'
        · exact first
        · exact equivalence.trans keptKnown known' keptKnown' first (equivalence.symm keptKnown' known' related')
      have place := progress.place_unique heap inside there there' both
      have low := (progress.points p left).1
      have low' := (progress.points q right).1
      omega

end Outcome

theorem flatMap_renamed (state : State) (text : Text) :
    (Token.read text).flatMap (renamed state.numbers) = Token.withNumbers state.number text := by
  rw [Token.withNumbers, Token.write, List.flatMap_map]
  refine List.flatMap_congr fun token _ => ?_
  cases token with
  | placeholder digits => rfl
  | _ => rfl

end Compaction

namespace Fragment

/-- What compaction makes of a fragment: its text with other numbers, and the values that are left. The values fit the places they are used in, a number is shared exactly if it must be, and the numbers first occur in order. -/
structure Compacted (sameness : Sameness) (fragment result : Fragment) : Prop where
  occurrences : result.indices.length = fragment.indices.length
  tokens : List.Forall₂ Token.Alike (Token.read fragment.text.content) (Token.read result.text.content)
  segments : List.Forall₂ Token.Reworded (Quoted.segments fragment.text.content) (Quoted.segments result.text.content)
  values : List.Forall₂ (fun old new => 1 ≤ new ∧ ∃ kept value, result.values[new - 1]? = some kept ∧
    fragment.values[old - 1]? = some value ∧ (kept = value ∨ sameness.Equal kept value)) fragment.indices result.indices
  shared : ∀ {i j p q p' q' : Nat}, fragment.indices[i]? = some p → result.indices[i]? = some p' →
    fragment.indices[j]? = some q → result.indices[j]? = some q' →
    (p' = q' ↔ p = q ∨ ∃ value value', fragment.values[p - 1]? = some value ∧ fragment.values[q - 1]? = some value' ∧
      sameness.Equal value value')
  order : result.indices.eraseDups = List.range' 1 result.values.length

open Compaction

theorem compact_of_not_readable {fragment : Fragment} (unreadable : ¬ Token.Readable fragment.text.content) (sameness : Sameness) :
    ∃ digits, fragment.compact sameness = .error (.numeralTooLong digits) := by
  obtain ⟨n, wrong, _⟩ := Token.readPlaceholders_of_not_readable unreadable
  exact ⟨n, by rw [compact, wrong, Outcome.bind_error]⟩

theorem compact_of_readable {fragment : Fragment} (readable : Token.Readable fragment.text.content) (sameness : Sameness) :
    fragment.compact sameness = (fragment.indices.foldlM (step sameness fragment) {}).map fun state =>
      ⟨.plain (Token.withNumbers state.number fragment.text.content), state.kept⟩ := by
  rw [compact, Token.readPlaceholders_of_readable readable, Outcome.bind_ok]
  change (fragment.indices.foldlM (step sameness fragment) {} >>= fun state => _) = _
  cases fragment.indices.foldlM (step sameness fragment) {} with
  | error _ => rfl
  | ok state =>
    rw [Outcome.bind_ok, flatMap_renamed]
    rfl

/-- Compaction changes no more when nothing is left to share and the numbers come in order. -/
private theorem compact_again {sameness : Sameness} {result : Fragment} {text : Text} {number : Nat → Nat}
    (written : result.text = .plain (Token.withNumbers number text))
    (order : result.indices.eraseDups = List.range' 1 result.values.length)
    (apart : result.values.Pairwise fun kept kept' => sameness.holds kept kept' = some false)
    (readable : Token.Readable result.text.content) : compact sameness result = .ok result := by
  have begun : ∀ old : Nat, ({} : State).numbers.lookup old = if old ∈ ([] : List Nat) then some old else none := by simp
  obtain ⟨state, ran, kept, still⟩ := @run_again sameness result.values result.text apart [] result.indices order 0 rfl {} rfl begun
  have unchanged : state.number ∘ number = number := funext fun old => still (number old)
  have ran : result.indices.foldlM (step sameness result) {} = .ok state := ran
  have same : Token.withNumbers state.number result.text.content = Token.withNumbers number text := by
    rw [written, Wording.content_plain, Token.withNumbers_withNumbers, unchanged]
  rw [compact_of_readable readable, ran, Except.map, same, ← written, kept]

/-- There are no more numbers given out than there are numerals that can be read. -/
private theorem length_kept_lt {sameness : Sameness} {fragment : Fragment} {state : State} {origins : List Nat}
    (readable : Token.Readable fragment.text.content) (progress : Progress sameness fragment state origins fragment.indices) :
    state.kept.length < 10 ^ Numeral.digitLimit := by
  have covered : (List.range' 1 state.kept.length).toFinset ⊆ fragment.indices.toFinset.image state.number := by
    intro n member
    rw [List.mem_toFinset, ← progress.order, List.mem_eraseDups] at member
    obtain ⟨old, met, rfl⟩ := List.mem_map.mp member
    exact Finset.mem_image_of_mem _ (List.mem_toFinset.mpr met)
  have bounded : fragment.indices.toFinset ⊆ Finset.Ico 1 (10 ^ Numeral.digitLimit) := by
    intro old member
    have met := List.mem_toFinset.mp member
    exact Finset.mem_Ico.mpr ⟨(progress.inRange old met).1, Token.index_lt_of_readable readable met⟩
  have many : (List.range' 1 state.kept.length).toFinset.card = state.kept.length := by
    rw [List.toFinset_card_of_nodup List.nodup_range', List.length_range']
  have positive : 0 < 10 ^ Numeral.digitLimit := Nat.pow_pos (by decide)
  have count : state.kept.length ≤ 10 ^ Numeral.digitLimit - 1 := calc
    state.kept.length = (List.range' 1 state.kept.length).toFinset.card := many.symm
    _ ≤ (fragment.indices.toFinset.image state.number).card := Finset.card_le_card covered
    _ ≤ fragment.indices.toFinset.card := Finset.card_image_le
    _ ≤ (Finset.Ico 1 (10 ^ Numeral.digitLimit)).card := Finset.card_le_card bounded
    _ = 10 ^ Numeral.digitLimit - 1 := Nat.card_Ico 1 _
  exact Nat.lt_of_le_of_lt count (Nat.sub_lt positive (by decide))

private theorem compacted_of_progress {sameness : Sameness} {fragment : Fragment} {state : State} {origins : List Nat}
    (heap : Value.Heap (Value.Part fragment.values)) (progress : Progress sameness fragment state origins fragment.indices) :
    Compacted sameness fragment ⟨.plain (Token.withNumbers state.number fragment.text.content), state.kept⟩ := by
  have inside : ∀ value ∈ fragment.values, Value.Part fragment.values value := fun _ member => .root member
  have indices : indices ⟨.plain (Token.withNumbers state.number fragment.text.content), state.kept⟩ =
      fragment.indices.map state.number := Token.placeholders_withNumbers _ _
  constructor
  · rw [indices, List.length_map]
  · rw [Wording.content_plain, Token.read_withNumbers, List.forall₂_map_right_iff]
    exact List.forall₂_same.mpr fun token _ => Token.alike_withNumber _ token
  · exact Token.segments_withNumbers _ _
  · rw [indices, List.forall₂_map_right_iff]
    refine List.forall₂_same.mpr ?_
    intro old met
    obtain ⟨kept, value, there, here, _, _, own⟩ := progress.kept_for heap inside met
    refine ⟨(progress.points old met).1, kept, value, there, here, ?_⟩
    rcases own with ⟨_, one⟩ | same
    · exact .inl one
    · exact .inr same
  · intro i j p q p' q' left left' right right'
    rw [indices, List.getElem?_map, left] at left'
    rw [indices, List.getElem?_map, right] at right'
    rw [← Option.some.inj left', ← Option.some.inj right']
    exact progress.number_eq_iff heap inside (List.mem_of_getElem? left) (List.mem_of_getElem? right)
  · rw [indices]
    exact progress.order

/-- Compaction fails at a numeral that is too long to be read, and otherwise exactly if a placeholder is out of range; where it does not fail, it keeps the meaning, and compacting again changes nothing. -/
theorem compact_canonical (sameness : Sameness) (fragment : Fragment) (heap : Value.Heap (Value.Part fragment.values))
    (quiet : ∀ value, Value.Part fragment.values value → value.isSignalling = false) :
    ((∃ digits, fragment.compact sameness = .error (.numeralTooLong digits)) ↔ ¬ Token.Readable fragment.text.content) ∧
    ((∃ text found given, fragment.compact sameness = .error (.mismatch text found given)) ↔
      Token.Readable fragment.text.content ∧ ∃ old ∈ fragment.indices, old < 1 ∨ fragment.values.length < old) ∧
    (Token.Readable fragment.text.content → (∀ old ∈ fragment.indices, 1 ≤ old ∧ old ≤ fragment.values.length) →
      ∃ result, fragment.compact sameness = .ok result ∧ Compacted sameness fragment result ∧
        result.compact sameness = .ok result) := by
  have inside : ∀ value ∈ fragment.values, Value.Part fragment.values value := fun _ member => .root member
  by_cases readable : Token.Readable fragment.text.content
  · have compacts := compact_of_readable readable sameness
    have answers : ∀ kept ∈ fragment.values, ∀ value ∈ fragment.values, sameness.holds kept value ≠ none :=
      fun kept here value there => Sameness.holds_ne_none heap.children quiet sameness (inside kept here) (inside value there)
    rcases run_cases answers (progress_start sameness fragment) fragment.indices with
      ⟨all, state, origins, ran, progress⟩ | ⟨old, member, outside, failed⟩
    · rw [ran] at compacts
      rw [List.nil_append] at progress
      refine ⟨?_, ?_, ?_⟩
      · simp [compacts, readable, Except.map]
      · simp only [compacts, Except.map, reduceCtorEq, exists_false, false_iff]
        rintro ⟨_, old, member, wrong⟩
        obtain ⟨low, high⟩ := all old member
        omega
      · intro _ _
        have compacted := compacted_of_progress heap progress
        refine ⟨_, compacts, compacted, compact_again rfl compacted.order progress.apart (Token.readable_withNumbers ?_)⟩
        intro old met
        exact Nat.lt_of_le_of_lt (progress.points old met).2.1 (length_kept_lt readable progress)
    · rw [failed] at compacts
      have wrong : old < 1 ∨ fragment.values.length < old := by
        simp only [InRange, not_and_or] at outside
        omega
      refine ⟨?_, ?_, ?_⟩
      · simp [compacts, readable, Except.map, misfit]
      · exact ⟨fun _ => ⟨readable, old, member, wrong⟩, fun _ => ⟨_, _, _, compacts⟩⟩
      · intro _ all
        exact absurd (all old member) outside
  · obtain ⟨digits, failed⟩ := compact_of_not_readable readable sameness
    refine ⟨?_, ?_, ?_⟩
    · exact ⟨fun _ => readable, fun _ => ⟨digits, failed⟩⟩
    · simp [failed, readable]
    · exact fun fine => absurd fine readable

/-- Two placeholders with one list, and a number between them. -/
private def repeating : Fragment :=
  ⟨.plain "a = $1 OR b = $2 OR c = $3", [.list 0 [.int 5], .int 6, .list 0 [.int 5]]⟩

private theorem part_repeating {value : Value} (part : Value.Part repeating.values value) :
    value = .list 0 [.int 5] ∨ value = .int 6 ∨ value = .int 5 := by
  induction part with
  | root member =>
    simp only [repeating, List.mem_cons, List.not_mem_nil, or_false] at member
    rcases member with rfl | rfl | rfl <;> simp
  | child _ member ih =>
    rcases ih with rfl | rfl | rfl <;> simp [Value.children] at member
    exact .inr (.inr member)

private theorem heap_repeating : Value.Heap (Value.Part repeating.values) := by
  refine ⟨.child, ?_, ?_⟩
  · intro left right here there one
    rcases part_repeating here with rfl | rfl | rfl <;> rcases part_repeating there with rfl | rfl | rfl <;>
      first | rfl | simp [Value.identical, Value.label?] at one
  · intro label entries present
    rcases part_repeating present with same | same | same <;> cases same

/-- One list bound twice takes one place. -/
theorem compact_shared_list :
    Value.Heap (Value.Part repeating.values) ∧
    (∀ value, Value.Part repeating.values value → value.isSignalling = false) ∧
    ∃ result, repeating.compact .shallow = .ok result ∧ Compacted .shallow repeating result ∧
      result.compact .shallow = .ok result := by
  have quiet : ∀ value, Value.Part repeating.values value → value.isSignalling = false := by
    intro value part
    rcases part_repeating part with rfl | rfl | rfl <;> rfl
  exact ⟨heap_repeating, quiet, (compact_canonical .shallow repeating heap_repeating quiet).2.2 (by decide +kernel) (by decide +kernel)⟩

/-- Two times of day that are equal, hashable and of one type keep their places if their offsets differ in fractions of a second. -/
theorem compact_keeps_equal_times_apart :
    (Value.time "10:00:00-05:30:15.250000").equal (.time "10:00:00-05:30:15.500000") = some true ∧
    (Value.time "10:00:00-05:30:15.250000").hashable = true ∧ (Value.time "10:00:00-05:30:15.500000").hashable = true ∧
    (compact .shallow ⟨.plain "$1 $2", [.time "10:00:00-05:30:15.250000", .time "10:00:00-05:30:15.500000"]⟩).map indices =
      .ok [1, 2] := by
  decide +kernel

end Fragment

end SqlCompose
