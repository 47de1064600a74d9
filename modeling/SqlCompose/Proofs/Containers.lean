import Mathlib
import SqlCompose.Proofs.Twins
import SqlCompose.Session.State

/-!
# What lies in a value

A value is a tree. Its containers are the lists, dictionaries and arrays of bytes in it that a copy has under labels of its own; these are what can be changed in place. Keys, and all records but rendered texts, are not copied, and what they hold is not counted: a record that lies in a value stays the very record that it was.

A copy is made of containers whose labels were free before. What lies in it besides containers lay in the original already.
-/

namespace SqlCompose.Value

/-! ### Containers -/

mutual

/-- The labels of the lists, dictionaries and arrays of bytes of a value, outside of keys and of records that are not copied. -/
def containers : Value → List Label
  | list label items => label :: containersOfAll items
  | tuple _ items | record _ .rendered items => containersOfAll items
  | dict label entries => label :: containersOfEntries entries
  | byteArray label _ => [label]
  | _ => []

def containersOfAll : List Value → List Label
  | [] => []
  | item :: items => containers item ++ containersOfAll items

def containersOfEntries : List (Value × Value) → List Label
  | [] => []
  | (_, value) :: entries => containers value ++ containersOfEntries entries

end

theorem mem_containersOfAll {label : Label} {items : List Value} :
    label ∈ containersOfAll items ↔ ∃ item ∈ items, label ∈ item.containers := by
  induction items with
  | nil => simp [containersOfAll]
  | cons item items ih => simp [containersOfAll, ih]

mutual

/-- A change in place of what is not among the containers of a value leaves the value as it is, if it is one that can be bound. -/
theorem changed_of_not_mem {label : Label} (change : Value → Value) :
    (value : Value) → value.fault? = none → label ∉ value.containers → value.changed label change = value
  | .list l items, sound, out => by
    simp only [containers, List.mem_cons, not_or] at out
    simp only [changed, if_neg (Ne.symm out.1), changedItems_of_not_mem change items (by simpa [fault?] using sound) out.2]
  | .tuple l items, sound, out => by
    simp only [changed, changedItems_of_not_mem change items (by simpa [fault?] using sound) (by simpa [containers] using out)]
  | .record l .rendered items, sound, out => by
    simp only [changed, changedItems_of_not_mem change items (by simpa [fault?] using sound) (by simpa [containers] using out)]
  | .dict l entries, sound, out => by
    simp only [containers, List.mem_cons, not_or] at out
    have entriesSound : faultEntries? entries = none := by
      rw [fault?] at sound
      cases keys : faultKeys? entries with
      | none => rwa [keys] at sound
      | some error => rw [keys] at sound; cases sound
    simp only [changed, if_neg (Ne.symm out.1), changedEntries_of_not_mem change entries entriesSound out.2]
  | .byteArray l content, _, out => by
    simp only [containers, List.mem_singleton] at out
    simp only [changed, if_neg (Ne.symm out)]
  | .null, _, _ | .bool _, _, _ | .int _, _, _ | .float _, _, _ | .floatNaN _, _, _ | .decimal _, _, _ | .decimalNaN _ _, _, _
  | .text _, _, _ | .entry _, _, _ | .bytes _, _, _ | .date _, _, _ | .dateTime _, _, _ | .time _, _, _
  | .duration _ _ _, _, _ | .uuid _, _, _ => rfl
  | .unbindable _ _, sound, _ | .object _ _, sound, _ | .record _ .predicate _, sound, _ | .record _ .builtQuery _, sound, _
  | .record _ .orderBy _, sound, _ | .record _ .columnType _, sound, _ | .record _ .foreignKey _, sound, _ => by
    cases sound

theorem changedItems_of_not_mem {label : Label} (change : Value → Value) :
    (items : List Value) → faultItems? items = none → label ∉ containersOfAll items →
      changedItems label change items = items
  | [], _, _ => rfl
  | item :: items, sound, out => by
    rw [faultItems?_cons] at sound
    simp only [containersOfAll, List.mem_append, not_or] at out
    rw [changedItems, changed_of_not_mem change item sound.1 out.1, changedItems_of_not_mem change items sound.2 out.2]

theorem changedEntries_of_not_mem {label : Label} (change : Value → Value) :
    (entries : List (Value × Value)) → faultEntries? entries = none → label ∉ containersOfEntries entries →
      changedEntries label change entries = entries
  | [], _, _ => rfl
  | (key, value) :: entries, sound, out => by
    simp only [containersOfEntries, List.mem_append, not_or] at out
    have both : fault? value = none ∧ faultEntries? entries = none := by
      rw [faultEntries?] at sound
      cases given : fault? value with
      | none => rw [given] at sound; exact ⟨rfl, sound⟩
      | some error => rw [given] at sound; cases sound
    rw [changedEntries, changed_of_not_mem change value both.1 out.1, changedEntries_of_not_mem change entries both.2 out.2]

end

/-! ### Parts -/

mutual

/-- A value and everything that lies in it, at any depth. -/
def parts : Value → List Value
  | list label items => list label items :: partsOfAll items
  | tuple label items => tuple label items :: partsOfAll items
  | record label kind fields => record label kind fields :: partsOfAll fields
  | dict label entries => dict label entries :: partsOfEntries entries
  | value => [value]

def partsOfAll : List Value → List Value
  | [] => []
  | item :: items => parts item ++ partsOfAll items

def partsOfEntries : List (Value × Value) → List Value
  | [] => []
  | (key, value) :: entries => parts key ++ (parts value ++ partsOfEntries entries)

end

/-- Something holds of a value and of everything that lies in it. -/
def Everywhere (holds : Value → Prop) (value : Value) : Prop :=
  ∀ part ∈ value.parts, holds part

section Everywhere

variable {holds : Value → Prop}

theorem mem_partsOfAll {part : Value} {items : List Value} : part ∈ partsOfAll items ↔ ∃ item ∈ items, part ∈ item.parts := by
  induction items with
  | nil => simp [partsOfAll]
  | cons item items ih => simp [partsOfAll, ih]

theorem mem_partsOfEntries {part : Value} {entries : List (Value × Value)} :
    part ∈ partsOfEntries entries ↔ ∃ entry ∈ entries, part ∈ entry.1.parts ∨ part ∈ entry.2.parts := by
  induction entries with
  | nil => simp [partsOfEntries]
  | cons entry entries ih =>
    obtain ⟨key, value⟩ := entry
    simp only [partsOfEntries, List.mem_append, ih, List.exists_mem_cons_iff, or_assoc]

theorem forall_partsOfAll {items : List Value} :
    (∀ part ∈ partsOfAll items, holds part) ↔ ∀ item ∈ items, item.Everywhere holds := by
  simp only [mem_partsOfAll, Everywhere]
  exact ⟨fun all item member part inside => all part ⟨item, member, inside⟩,
    fun all part ⟨item, member, inside⟩ => all item member part inside⟩

theorem everywhere_list {label : Label} {items : List Value} :
    (list label items).Everywhere holds ↔ holds (list label items) ∧ ∀ item ∈ items, item.Everywhere holds := by
  rw [Everywhere, parts, List.forall_mem_cons, forall_partsOfAll]

theorem everywhere_tuple {label : Label} {items : List Value} :
    (tuple label items).Everywhere holds ↔ holds (tuple label items) ∧ ∀ item ∈ items, item.Everywhere holds := by
  rw [Everywhere, parts, List.forall_mem_cons, forall_partsOfAll]

theorem everywhere_record {label : Label} {kind : RecordKind} {fields : List Value} :
    (record label kind fields).Everywhere holds ↔
      holds (record label kind fields) ∧ ∀ field ∈ fields, field.Everywhere holds := by
  rw [Everywhere, parts, List.forall_mem_cons, forall_partsOfAll]

theorem everywhere_dict {label : Label} {entries : List (Value × Value)} :
    (dict label entries).Everywhere holds ↔
      holds (dict label entries) ∧ ∀ entry ∈ entries, entry.1.Everywhere holds ∧ entry.2.Everywhere holds := by
  rw [Everywhere, parts, List.forall_mem_cons]
  refine and_congr_right fun _ => ?_
  simp only [mem_partsOfEntries, Everywhere]
  constructor
  · exact fun all pair member =>
      ⟨fun part inside => all part ⟨pair, member, .inl inside⟩, fun part inside => all part ⟨pair, member, .inr inside⟩⟩
  · rintro all part ⟨pair, member, inside | inside⟩
    · exact (all pair member).1 part inside
    · exact (all pair member).2 part inside

theorem Everywhere.self {value : Value} (all : value.Everywhere holds) : holds value := by
  refine all value ?_
  cases value <;> simp [parts]

theorem Everywhere.imp {holds' : Value → Prop} {value : Value} (all : value.Everywhere holds)
    (implied : ∀ part, holds part → holds' part) : value.Everywhere holds' :=
  fun part inside => implied part (all part inside)

end Everywhere

/-! ### Copies -/

/-- Labels that are given out from a first one on, and the next one after them. -/
structure GivenOut (first next : Nat) (labels : List Nat) : Prop where
  grows : first ≤ next
  within : ∀ label ∈ labels, first ≤ label ∧ label < next

namespace GivenOut

variable {first between next : Nat} {labels others : List Nat}

theorem none (label : Nat) : GivenOut label label [] :=
  ⟨le_rfl, by rintro _ ⟨⟩⟩

theorem later (given : GivenOut (first + 1) next labels) : GivenOut first next labels :=
  ⟨(Nat.le_succ first).trans given.grows, fun label member =>
    ⟨(Nat.le_succ first).trans (given.within label member).1, (given.within label member).2⟩⟩

theorem cons (given : GivenOut (first + 1) next labels) : GivenOut first next (first :: labels) :=
  ⟨given.later.grows, List.forall_mem_cons.mpr ⟨⟨le_rfl, given.grows⟩, given.later.within⟩⟩

theorem append (given : GivenOut first between labels) (further : GivenOut between next others) :
    GivenOut first next (labels ++ others) := by
  refine ⟨given.grows.trans further.grows, fun label member => ?_⟩
  rcases List.mem_append.mp member with member | member
  · exact ⟨(given.within label member).1, (given.within label member).2.trans_le further.grows⟩
  · exact ⟨given.grows.trans (further.within label member).1, (further.within label member).2⟩

end GivenOut

mutual

theorem givenOut_copyFrom (next : Label) :
    (value : Value) → GivenOut next (copyFrom next value).2 (copyFrom next value).1.containers
  | .list _ items => (givenOut_copyItems (next + 1) items).cons
  | .tuple _ items | .record _ .rendered items => (givenOut_copyItems (next + 1) items).later
  | .dict _ entries => (givenOut_copyEntries (next + 1) entries).cons
  | .byteArray _ _ => (GivenOut.none (next + 1)).cons
  | .null | .bool _ | .int _ | .float _ | .floatNaN _ | .decimal _ | .decimalNaN _ _ | .text _ | .entry _ | .bytes _ | .date _
  | .dateTime _ | .time _ | .duration _ _ _ | .uuid _ | .unbindable _ _ | .object _ _ | .record _ .predicate _
  | .record _ .builtQuery _ | .record _ .orderBy _ | .record _ .columnType _ | .record _ .foreignKey _ =>
    GivenOut.none next

theorem givenOut_copyItems (next : Label) :
    (items : List Value) → GivenOut next (copyItems next items).2 (containersOfAll (copyItems next items).1)
  | [] => GivenOut.none next
  | item :: items => (givenOut_copyFrom next item).append (givenOut_copyItems (copyFrom next item).2 items)

theorem givenOut_copyEntries (next : Label) :
    (entries : List (Value × Value)) →
      GivenOut next (copyEntries next entries).2 (containersOfEntries (copyEntries next entries).1)
  | [] => GivenOut.none next
  | (_, value) :: entries =>
    (givenOut_copyFrom next value).append (givenOut_copyEntries (copyFrom next value).2 entries)

end

/-- Something that is asked of objects, of predicates and of finished queries only. -/
def OfHandles (holds : Value → Prop) : Prop :=
  ∀ value : Value, (∀ label face, value ≠ object label face) → (∀ label fields, value ≠ record label .predicate fields) →
    (∀ label fields, value ≠ record label .builtQuery fields) → holds value

/-- Whether a value is an object, a predicate or a finished query. -/
def isHandle : Value → Bool
  | object _ _ | record _ .predicate _ | record _ .builtQuery _ => true
  | _ => false

theorem OfHandles.other {holds : Value → Prop} (free : OfHandles holds) {value : Value} (other : value.isHandle = false) :
    holds value := by
  refine free value ?_ ?_ ?_ <;>
  · rintro _ _ rfl
    cases other

section Copies

variable {holds : Value → Prop}

mutual

/-- What holds of all objects, predicates and finished queries in a value holds of all of them in its copies. -/
theorem Everywhere.copyFrom (free : OfHandles holds) (next : Label) :
    (value : Value) → value.Everywhere holds → (copyFrom next value).1.Everywhere holds
  | .list _ items, all =>
    everywhere_list.mpr ⟨free.other rfl, Everywhere.copyItems free (next + 1) items (everywhere_list.mp all).2⟩
  | .tuple _ items, all =>
    everywhere_tuple.mpr ⟨free.other rfl, Everywhere.copyItems free (next + 1) items (everywhere_tuple.mp all).2⟩
  | .record _ .rendered fields, all =>
    everywhere_tuple.mpr ⟨free.other rfl, Everywhere.copyItems free (next + 1) fields (everywhere_record.mp all).2⟩
  | .dict _ entries, all =>
    everywhere_dict.mpr ⟨free.other rfl, Everywhere.copyEntries free (next + 1) entries (everywhere_dict.mp all).2⟩
  | .byteArray _ _, _ => List.forall_mem_singleton.mpr (free.other rfl)
  | .null, all | .bool _, all | .int _, all | .float _, all | .floatNaN _, all | .decimal _, all | .decimalNaN _ _, all
  | .text _, all | .entry _, all | .bytes _, all | .date _, all | .dateTime _, all | .time _, all | .duration _ _ _, all
  | .uuid _, all | .unbindable _ _, all | .object _ _, all | .record _ .predicate _, all | .record _ .builtQuery _, all
  | .record _ .orderBy _, all | .record _ .columnType _, all | .record _ .foreignKey _, all => all

theorem Everywhere.copyItems (free : OfHandles holds) (next : Label) :
    (items : List Value) → (∀ item ∈ items, item.Everywhere holds) → ∀ item ∈ (copyItems next items).1, item.Everywhere holds
  | [], _ => by simp [Value.copyItems]
  | item :: items, all => by
    rw [List.forall_mem_cons] at all
    simp only [Value.copyItems, List.forall_mem_cons]
    exact ⟨Everywhere.copyFrom free next item all.1, Everywhere.copyItems free _ items all.2⟩

theorem Everywhere.copyEntries (free : OfHandles holds) (next : Label) :
    (entries : List (Value × Value)) → (∀ entry ∈ entries, entry.1.Everywhere holds ∧ entry.2.Everywhere holds) →
      ∀ entry ∈ (copyEntries next entries).1, entry.1.Everywhere holds ∧ entry.2.Everywhere holds
  | [], _ => by simp [Value.copyEntries]
  | (key, value) :: entries, all => by
    rw [List.forall_mem_cons] at all
    simp only [Value.copyEntries, List.forall_mem_cons]
    exact ⟨⟨all.1.1, Everywhere.copyFrom free next value all.1.2⟩, Everywhere.copyEntries free _ entries all.2⟩

end

mutual

/-- A value that can be bound has no objects, predicates and finished queries in it. -/
theorem everywhere_of_bindable (free : OfHandles holds) :
    (value : Value) → value.fault? = none → value.Everywhere holds
  | .list _ items, sound =>
    everywhere_list.mpr ⟨free.other rfl, everywhere_of_bindableItems free items (by simpa [fault?] using sound)⟩
  | .tuple _ items, sound =>
    everywhere_tuple.mpr ⟨free.other rfl, everywhere_of_bindableItems free items (by simpa [fault?] using sound)⟩
  | .record _ .rendered fields, sound =>
    everywhere_record.mpr ⟨free.other rfl, everywhere_of_bindableItems free fields (by simpa [fault?] using sound)⟩
  | .dict _ entries, sound => by
    rw [fault?] at sound
    cases keys : faultKeys? entries with
    | some error => rw [keys] at sound; cases sound
    | none =>
      rw [keys] at sound
      exact everywhere_dict.mpr ⟨free.other rfl, everywhere_of_bindableEntries free entries keys sound⟩
  | .byteArray _ _, _ | .null, _ | .bool _, _ | .int _, _ | .float _, _ | .floatNaN _, _ | .decimal _, _ | .decimalNaN _ _, _
  | .text _, _ | .entry _, _ | .bytes _, _ | .date _, _ | .dateTime _, _ | .time _, _ | .duration _ _ _, _ | .uuid _, _ =>
    List.forall_mem_singleton.mpr (free.other rfl)
  | .unbindable _ _, sound | .object _ _, sound | .record _ .predicate _, sound | .record _ .builtQuery _, sound
  | .record _ .orderBy _, sound | .record _ .columnType _, sound | .record _ .foreignKey _, sound => by
    cases sound

theorem everywhere_of_bindableItems (free : OfHandles holds) :
    (items : List Value) → faultItems? items = none → ∀ item ∈ items, item.Everywhere holds
  | [], _ => by simp
  | item :: items, sound => by
    rw [faultItems?_cons] at sound
    exact List.forall_mem_cons.mpr ⟨everywhere_of_bindable free item sound.1,
      everywhere_of_bindableItems free items sound.2⟩

theorem everywhere_of_bindableEntries (free : OfHandles holds) :
    (entries : List (Value × Value)) → faultKeys? entries = none → faultEntries? entries = none →
      ∀ entry ∈ entries, entry.1.Everywhere holds ∧ entry.2.Everywhere holds
  | [], _, _ => by simp
  | (key, value) :: entries, keys, sound => by
    rw [faultKeys?] at keys
    split at keys
    · next isText =>
      have both : fault? value = none ∧ faultEntries? entries = none := by
        rw [faultEntries?] at sound
        cases given : fault? value with
        | none => rw [given] at sound; exact ⟨rfl, sound⟩
        | some error => rw [given] at sound; cases sound
      have keyed : key.Everywhere holds := by
        cases key with
        | text _ | entry _ => exact List.forall_mem_singleton.mpr (free.other rfl)
        | _ => cases isText
      exact List.forall_mem_cons.mpr ⟨⟨keyed, everywhere_of_bindable free value both.1⟩,
        everywhere_of_bindableEntries free entries keys both.2⟩
    · cases keys

end

end Copies

/-! ### Faces -/

section Faces

variable (faceOf : Label → Option ObjectFace)

mutual

/-- The containers of a value do not depend on what the objects in it look like. -/
theorem containers_refaced : (value : Value) → (value.refaced faceOf).containers = value.containers
  | .list label items => congrArg (label :: ·) (containers_refacedItems items)
  | .tuple _ items | .record _ .rendered items => containers_refacedItems items
  | .dict label entries => congrArg (label :: ·) (containers_refacedEntries entries)
  | .byteArray _ _ | .null | .bool _ | .int _ | .float _ | .floatNaN _ | .decimal _ | .decimalNaN _ _ | .text _ | .entry _
  | .bytes _ | .date _ | .dateTime _ | .time _ | .duration _ _ _ | .uuid _ | .unbindable _ _ | .object _ _
  | .record _ .predicate _ | .record _ .builtQuery _ | .record _ .orderBy _ | .record _ .columnType _
  | .record _ .foreignKey _ => rfl

theorem containers_refacedItems :
    (items : List Value) → containersOfAll (refacedItems faceOf items) = containersOfAll items
  | [] => rfl
  | item :: items => congrArg₂ (· ++ ·) (containers_refaced item) (containers_refacedItems items)

theorem containers_refacedEntries :
    (entries : List (Value × Value)) → containersOfEntries (refacedEntries faceOf entries) = containersOfEntries entries
  | [] => rfl
  | (_, value) :: entries => congrArg₂ (· ++ ·) (containers_refaced value) (containers_refacedEntries entries)

end

mutual

/-- There are no objects in a value that can be bound, so it looks as it does. -/
theorem refaced_of_bindable : (value : Value) → value.fault? = none → value.refaced faceOf = value
  | .list _ items, sound => by rw [refaced, refacedItems_of_bindable items (by simpa [fault?] using sound)]
  | .tuple _ items, sound => by rw [refaced, refacedItems_of_bindable items (by simpa [fault?] using sound)]
  | .record _ .rendered fields, sound => by rw [refaced, refacedItems_of_bindable fields (by simpa [fault?] using sound)]
  | .dict _ entries, sound => by
    rw [fault?] at sound
    cases keys : faultKeys? entries with
    | some error => rw [keys] at sound; cases sound
    | none =>
      rw [keys] at sound
      rw [refaced, refacedEntries_of_bindable entries keys sound]
  | .byteArray _ _, _ | .null, _ | .bool _, _ | .int _, _ | .float _, _ | .floatNaN _, _ | .decimal _, _ | .decimalNaN _ _, _
  | .text _, _ | .entry _, _ | .bytes _, _ | .date _, _ | .dateTime _, _ | .time _, _ | .duration _ _ _, _ | .uuid _, _ => rfl
  | .unbindable _ _, sound | .object _ _, sound | .record _ .predicate _, sound | .record _ .builtQuery _, sound
  | .record _ .orderBy _, sound | .record _ .columnType _, sound | .record _ .foreignKey _, sound => by
    cases sound

theorem refacedItems_of_bindable : (items : List Value) → faultItems? items = none → refacedItems faceOf items = items
  | [], _ => rfl
  | item :: items, sound => by
    rw [faultItems?_cons] at sound
    rw [refacedItems, refaced_of_bindable item sound.1, refacedItems_of_bindable items sound.2]

theorem refacedEntries_of_bindable : (entries : List (Value × Value)) → faultKeys? entries = none →
    faultEntries? entries = none → refacedEntries faceOf entries = entries
  | [], _, _ => rfl
  | (key, value) :: entries, keys, sound => by
    rw [faultKeys?] at keys
    split at keys
    · next isText =>
      have both : fault? value = none ∧ faultEntries? entries = none := by
        rw [faultEntries?] at sound
        cases given : fault? value with
        | none => rw [given] at sound; exact ⟨rfl, sound⟩
        | some error => rw [given] at sound; cases sound
      have same : key.refaced faceOf = key := by
        cases key with
        | text _ | entry _ => rfl
        | _ => cases isText
      rw [refacedEntries, same, refaced_of_bindable value both.1, refacedEntries_of_bindable entries keys both.2]
    · cases keys

end

/-- Something that does not depend on what objects look like. -/
def Faceless (holds : Value → Prop) : Prop :=
  ∀ (value : Value) (faceOf : Label → Option ObjectFace), holds value → holds (value.refaced faceOf)

variable {holds : Value → Prop}

mutual

/-- What holds everywhere in a value, and does not depend on faces, holds there with other faces. -/
theorem Everywhere.refaced (closed : Faceless holds) :
    (value : Value) → value.Everywhere holds → (value.refaced faceOf).Everywhere holds
  | .list _ items, all =>
    everywhere_list.mpr ⟨closed _ _ all.self, Everywhere.refacedItems closed items (everywhere_list.mp all).2⟩
  | .tuple _ items, all =>
    everywhere_tuple.mpr ⟨closed _ _ all.self, Everywhere.refacedItems closed items (everywhere_tuple.mp all).2⟩
  | .record _ _ fields, all =>
    everywhere_record.mpr ⟨closed _ _ all.self, Everywhere.refacedItems closed fields (everywhere_record.mp all).2⟩
  | .dict _ entries, all =>
    everywhere_dict.mpr ⟨closed _ _ all.self, Everywhere.refacedEntries closed entries (everywhere_dict.mp all).2⟩
  | .object _ _, all => List.forall_mem_singleton.mpr (closed _ _ all.self)
  | .byteArray _ _, all | .null, all | .bool _, all | .int _, all | .float _, all | .floatNaN _, all | .decimal _, all
  | .decimalNaN _ _, all | .text _, all | .entry _, all | .bytes _, all | .date _, all | .dateTime _, all | .time _, all
  | .duration _ _ _, all | .uuid _, all | .unbindable _ _, all => all

theorem Everywhere.refacedItems (closed : Faceless holds) :
    (items : List Value) → (∀ item ∈ items, item.Everywhere holds) →
      ∀ item ∈ refacedItems faceOf items, item.Everywhere holds
  | [], _ => by simp [Value.refacedItems]
  | item :: items, all => by
    rw [List.forall_mem_cons] at all
    rw [Value.refacedItems, List.forall_mem_cons]
    exact ⟨Everywhere.refaced closed item all.1, Everywhere.refacedItems closed items all.2⟩

theorem Everywhere.refacedEntries (closed : Faceless holds) :
    (entries : List (Value × Value)) → (∀ entry ∈ entries, entry.1.Everywhere holds ∧ entry.2.Everywhere holds) →
      ∀ entry ∈ refacedEntries faceOf entries, entry.1.Everywhere holds ∧ entry.2.Everywhere holds
  | [], _ => by simp [Value.refacedEntries]
  | (key, value) :: entries, all => by
    rw [List.forall_mem_cons] at all
    rw [Value.refacedEntries, List.forall_mem_cons]
    exact ⟨⟨Everywhere.refaced closed key all.1.1, Everywhere.refaced closed value all.1.2⟩,
      Everywhere.refacedEntries closed entries all.2⟩

end

end Faces

end SqlCompose.Value
