import Mathlib
import SqlCompose.Predicate
import SqlCompose.Proofs.Outcome

/-!
# What building can result in

A computation yields a result if it succeeds with it from some trace. The labels that are given out and the records that are logged on the way depend on the trace, and nothing that is said about results here does. A result of a sequence of steps is a result of its last step, after results of all before it.
-/

namespace SqlCompose

namespace Build

variable {α β : Type}

/-- The computation succeeds with the result, from some trace. -/
def Yields (action : Build α) (result : α) : Prop :=
  ∃ trace after, runFrom trace action = (.ok result, after)

theorem yields_pure {value result : α} : Yields (pure value) result ↔ value = result := by
  constructor
  · rintro ⟨trace, after, done⟩
    cases done
    rfl
  · rintro rfl
    exact ⟨{}, {}, rfl⟩

theorem not_yields_throw {error : Error} {result : α} : ¬ Yields (throw error : Build α) result := by
  rintro ⟨trace, after, done⟩
  cases done

theorem runFrom_bind (first : Build α) (next : α → Build β) (trace : Trace) :
    runFrom trace (first >>= next) = match runFrom trace first with
      | (.ok value, between) => runFrom between (next value)
      | (.error error, after) => (.error error, after) := by
  change (ExceptT.bindCont next (runFrom trace first).1) (runFrom trace first).2 = _
  cases runFrom trace first with
  | mk outcome between => cases outcome <;> rfl

theorem Yields.bind {first : Build α} {next : α → Build β} {result : β} (yields : Yields (first >>= next) result) :
    ∃ value, first.Yields value ∧ (next value).Yields result := by
  obtain ⟨trace, after, done⟩ := yields
  rw [runFrom_bind] at done
  cases start : runFrom trace first with
  | mk outcome between =>
    rw [start] at done
    cases outcome with
    | ok value => exact ⟨value, ⟨trace, between, start⟩, ⟨between, after, done⟩⟩
    | error error => cases done

/-- Behind a step that succeeds from some trace, a step that succeeds from any. -/
theorem Yields.andThen {first : Build α} {next : α → Build β} {value : α} (yields : first.Yields value) {property : β → Prop}
    (always : ∀ trace, ∃ result after, runFrom trace (next value) = (.ok result, after) ∧ property result) :
    ∃ result, (first >>= next).Yields result ∧ property result := by
  obtain ⟨trace, between, start⟩ := yields
  obtain ⟨result, after, done, holds⟩ := always between
  exact ⟨result, ⟨trace, after, by rw [runFrom_bind, start]; exact done⟩, holds⟩

theorem yields_lift {outcome : Except Error α} {result : α} : Yields (liftM outcome : Build α) result ↔ outcome = .ok result := by
  cases outcome with
  | ok value =>
    rw [Except.ok.injEq]
    exact yields_pure
  | error error =>
    constructor
    · rintro ⟨trace, after, done⟩
      cases done
    · intro same
      cases same

theorem Yields.mapM {f : α → Build β} {items : List α} {results : List β} (yields : Yields (items.mapM f) results) :
    List.Forall₂ (fun item result => (f item).Yields result) items results := by
  induction items generalizing results with
  | nil =>
    rw [List.mapM_nil, yields_pure] at yields
    rw [← yields]
    exact .nil
  | cons item items ih =>
    rw [List.mapM_cons] at yields
    obtain ⟨first, here, further⟩ := yields.bind
    obtain ⟨others, there, same⟩ := further.bind
    rw [yields_pure] at same
    rw [← same]
    exact .cons here (ih there)

/-- Every result of a traversal is the result of a step. -/
theorem exists_of_mem_mapM {f : α → Build β} {items : List α} {results : List β} (yields : Yields (items.mapM f) results)
    {result : β} (member : result ∈ results) : ∃ item ∈ items, (f item).Yields result := by
  have all := yields.mapM
  clear yields
  induction all with
  | nil => cases member
  | @cons item first items results here _ ih =>
    rcases List.mem_cons.mp member with rfl | further
    · exact ⟨item, by simp, here⟩
    · obtain ⟨other, inside, found⟩ := ih further
      exact ⟨other, List.mem_cons_of_mem _ inside, found⟩

end Build

/-! ### Copies -/

namespace Value

theorem length_copyItems (next : Label) (items : List Value) : (copyItems next items).1.length = items.length := by
  induction items generalizing next with
  | nil => rfl
  | cons item items ih =>
    rw [copyItems]
    simp [ih]

theorem length_of_copyAll {values copies : List Value} (yields : (copyAll values).Yields copies) :
    copies.length = values.length := by
  obtain ⟨trace, after, done⟩ := yields
  cases done
  exact length_copyItems trace.nextLabel values

theorem length_of_checkAll {values copies : List Value} (yields : (checkAll values).Yields copies) :
    copies.length = values.length := by
  unfold checkAll at yields
  split at yields
  · exact absurd yields Build.not_yields_throw
  · exact length_of_copyAll yields

end Value

/-- A predicate that is made has a marker for each of its values. -/
theorem Predicate.of_make {text : Wording} {values : List Value} {predicate : Predicate}
    (made : (make text values).Yields predicate) :
    predicate.text = text ∧ predicate.values.length = values.length ∧ Token.countMarkers text.content = values.length := by
  obtain ⟨copies, copied, further⟩ := made.bind
  have length := Value.length_of_checkAll copied
  simp only at further
  split at further
  · next counted =>
    rw [Build.yields_pure] at further
    rw [← further]
    exact ⟨rfl, length, counted.trans length⟩
  · exact absurd further Build.not_yields_throw

namespace BuiltQuery

theorem of_ofParts {text : Value} {values : List Value} {built : BuiltQuery}
    (made : (ofParts text values).Yields built) : built.text = text ∧ built.values.length = values.length := by
  obtain ⟨copies, copied, same⟩ := made.bind
  rw [Build.yields_pure] at same
  rw [← same]
  exact ⟨rfl, Value.length_of_copyAll copied⟩

end BuiltQuery

end SqlCompose
