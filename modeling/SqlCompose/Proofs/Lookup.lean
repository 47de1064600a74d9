import Mathlib
import SqlCompose.Session.State

/-!
# Looking up

What a list of entries has under a key, when an entry is put into the list, when all values are changed, and when some keys are dropped.
-/

namespace SqlCompose

section Entries

variable {κ α β : Type} [DecidableEq κ] [BEq κ] [LawfulBEq κ]

private theorem lookup_cons_eq (key other : κ) (value : α) (entries : List (κ × α)) :
    ((key, value) :: entries).lookup other = if other = key then some value else entries.lookup other := by
  rw [List.lookup_cons]
  by_cases asked : other = key
  · subst asked
    simp
  · have off : (other == key) = false := by simpa using asked
    rw [off, if_neg asked]

theorem lookup_putEntry (key other : κ) (value : α) (entries : List (κ × α)) :
    (putEntry key value entries).lookup other = if other = key then some value else entries.lookup other := by
  induction entries with
  | nil => exact lookup_cons_eq key other value []
  | cons entry entries ih =>
    obtain ⟨key', value'⟩ := entry
    rw [putEntry, lookup_cons_eq]
    split
    · next same =>
      subst same
      rw [lookup_cons_eq]
      split <;> rfl
    · next differ =>
      rw [lookup_cons_eq, ih]
      by_cases asked : other = key'
      · subst asked
        simp [differ]
      · simp [asked]

theorem lookup_filter (keeps : κ → Bool) (key : κ) (entries : List (κ × α)) :
    (entries.filter fun entry => keeps entry.1).lookup key = if keeps key then entries.lookup key else none := by
  induction entries with
  | nil => rw [List.filter_nil, List.lookup_nil, ite_self]
  | cons entry entries ih =>
    obtain ⟨key', value⟩ := entry
    rw [List.filter_cons, lookup_cons_eq]
    by_cases asked : key = key'
    · subst asked
      split
      · rw [lookup_cons_eq, if_pos rfl, if_pos rfl]
      · next dropped => rw [ih, if_neg dropped]
    · rw [if_neg asked, ← ih]
      split
      · rw [lookup_cons_eq, if_neg asked]
      · rfl

omit [DecidableEq κ] in
theorem mem_of_lookup {key : κ} {value : α} {entries : List (κ × α)} (found : entries.lookup key = some value) :
    (key, value) ∈ entries := by
  obtain ⟨front, back, rfl, _⟩ := List.lookup_eq_some_iff.mp found
  simp

omit [DecidableEq κ] in
theorem lookup_eq_none {key : κ} {entries : List (κ × α)} (other : key ∉ entries.map (·.1)) : entries.lookup key = none :=
  List.lookup_eq_none_iff.mpr fun _ member => bne_iff_ne.mpr fun same => other (same ▸ List.mem_map_of_mem member)

omit [DecidableEq κ] [LawfulBEq κ] in
theorem lookup_mapValues (f : α → β) (key : κ) (entries : List (κ × α)) :
    (entries.map fun (k, value) => (k, f value)).lookup key = (entries.lookup key).map f := by
  induction entries with
  | nil => rfl
  | cons entry entries ih =>
    obtain ⟨k, value⟩ := entry
    simp only [List.map_cons, List.lookup_cons, ih]
    split <;> rfl

end Entries

end SqlCompose
