import Mathlib
import SqlCompose.Build

/-!
# Outcomes

What is known about the parts of a computation that may fail when the outcome of the whole is known.
-/

namespace SqlCompose.Outcome

variable {α β : Type}

@[simp] theorem bind_ok (value : α) (next : α → Except Error β) : (Except.ok value >>= next) = next value := rfl

@[simp] theorem bind_error (error : Error) (next : α → Except Error β) : (Except.error error >>= next) = .error error := rfl

@[simp] theorem pure_eq (value : α) : (pure value : Except Error α) = .ok value := rfl

theorem bind_eq_ok {first : Except Error α} {next : α → Except Error β} {result : β} :
    (first >>= next) = .ok result ↔ ∃ value, first = .ok value ∧ next value = .ok result := by
  cases first with
  | error error => simp
  | ok value => simp

theorem bind_eq_error {first : Except Error α} {next : α → Except Error β} {error : Error} :
    (first >>= next) = .error error ↔ first = .error error ∨ ∃ value, first = .ok value ∧ next value = .error error := by
  cases first with
  | error error => simp
  | ok value => simp

theorem map_eq_ok {first : Except Error α} {f : α → β} {result : β} :
    first.map f = .ok result ↔ ∃ value, first = .ok value ∧ f value = result := by
  cases first with
  | error error => simp [Except.map]
  | ok value => simp [Except.map]

theorem mapM_eq_ok {f : α → Except Error β} {items : List α} {results : List β} :
    items.mapM f = .ok results ↔ List.Forall₂ (fun item result => f item = .ok result) items results := by
  induction items generalizing results with
  | nil => simp [eq_comm]
  | cons item items ih =>
    rw [List.mapM_cons]
    constructor
    · intro done
      obtain ⟨first, here, further⟩ := bind_eq_ok.mp done
      obtain ⟨others, there, same⟩ := bind_eq_ok.mp further
      obtain rfl := Except.ok.inj same
      exact .cons here (ih.mp there)
    · intro done
      cases done with
      | cons here there => rw [here, bind_ok, ih.mpr there, bind_ok, pure_eq]

/-- What holds of every result of a step holds of every result of a traversal. -/
theorem forall_of_mapM {f : α → Except Error β} {items : List α} {results : List β} (done : items.mapM f = .ok results)
    {property : β → Prop} (each : ∀ item ∈ items, ∀ result, f item = .ok result → property result) :
    ∀ result ∈ results, property result := by
  have all := mapM_eq_ok.mp done
  clear done
  induction all with
  | nil => simp
  | cons here _ ih =>
    intro result member
    rcases List.mem_cons.mp member with rfl | further
    · exact each _ (by simp) result here
    · exact ih (fun other inside => each other (List.mem_cons_of_mem _ inside)) result further

/-- What all of some outcomes give is what they give one by one. -/
theorem mem_of_mapM_id {outcomes : List (Except Error α)} {results : List α} (done : outcomes.mapM id = .ok results) {result : α}
    (member : result ∈ results) : .ok result ∈ outcomes := by
  have all := mapM_eq_ok.mp done
  clear done
  induction all with
  | nil => cases member
  | cons here _ ih =>
    rcases List.mem_cons.mp member with rfl | further
    · exact List.mem_cons.mpr (.inl here.symm)
    · exact List.mem_cons_of_mem _ (ih further)

end SqlCompose.Outcome
