import Mathlib
import SqlCompose.Value.Equality

/-!
# Equality is symmetric and transitive

Equality of values is decided by a recursion that takes the shorter way where it meets one object twice and that looks every key of one dictionary up in the other. That it is symmetric and transitive all the same rests on what is true of all values in memory: one object is one value wherever it occurs, and a dictionary has no key twice (`Heap`). A NaN is equal to nothing, so equality is not reflexive, and on its own a NaN is not even equal to itself.
-/

namespace SqlCompose

/-! ### Relations on part of a type -/

/-- Symmetric and transitive among the elements with some property. -/
structure PartialEquivalence {α : Type} (domain : α → Prop) (related : α → α → Prop) : Prop where
  symm : ∀ {a b}, domain a → domain b → related a b → related b a
  trans : ∀ {a b c}, domain a → domain b → domain c → related a b → related b c → related a c

namespace PartialEquivalence

variable {α : Type} {domain : α → Prop} {related : α → α → Prop}

theorem forall₂_symm (equivalence : PartialEquivalence domain related) {as bs : List α} (left : ∀ a ∈ as, domain a)
    (right : ∀ b ∈ bs, domain b) (all : List.Forall₂ related as bs) : List.Forall₂ related bs as := by
  induction all with
  | nil => exact .nil
  | cons first _ ih =>
    exact .cons (equivalence.symm (left _ (by simp)) (right _ (by simp)) first)
      (ih (fun a member => left a (List.mem_cons_of_mem _ member)) fun b member => right b (List.mem_cons_of_mem _ member))

theorem forall₂_trans (equivalence : PartialEquivalence domain related) {as bs cs : List α} (left : ∀ a ∈ as, domain a)
    (middle : ∀ b ∈ bs, domain b) (right : ∀ c ∈ cs, domain c) (first : List.Forall₂ related as bs)
    (second : List.Forall₂ related bs cs) : List.Forall₂ related as cs := by
  induction first generalizing cs with
  | nil =>
    cases second
    exact .nil
  | cons head _ ih =>
    cases second with
    | cons head' tail' =>
      refine .cons (equivalence.trans (left _ (by simp)) (middle _ (by simp)) (right _ (by simp)) head head') ?_
      exact ih (fun a member => left a (List.mem_cons_of_mem _ member))
        (fun b member => middle b (List.mem_cons_of_mem _ member)) (fun c member => right c (List.mem_cons_of_mem _ member)) tail'

end PartialEquivalence

theorem exists_of_mem_right {α β : Type} {related : α → β → Prop} {as : List α} {bs : List β}
    (all : List.Forall₂ related as bs) {b : β} (member : b ∈ bs) : ∃ a ∈ as, related a b := by
  induction all with
  | nil => cases member
  | cons first _ ih =>
    rcases List.mem_cons.mp member with rfl | further
    · exact ⟨_, by simp, first⟩
    · obtain ⟨a, member, here⟩ := ih further
      exact ⟨a, List.mem_cons_of_mem _ member, here⟩

/-! ### Tables -/

section Tables

variable {α β : Type} {key : α → α → Bool} {item : β → β → Prop} {domain : α → Prop}

/-- No two entries have one key. -/
def DistinctKeys (key : α → α → Bool) (entries : List (α × β)) : Prop :=
  entries.Pairwise fun entry entry' => key entry.1 entry'.1 = false

/-- Every entry has its key in the other table, with a matching item. -/
def Covered (key : α → α → Bool) (item : β → β → Prop) (entries entries' : List (α × β)) : Prop :=
  ∀ entry ∈ entries, ∃ entry' ∈ entries', key entry.1 entry'.1 = true ∧ item entry.2 entry'.2

private theorem eq_of_key (equivalence : PartialEquivalence domain fun a b => key a b = true) {entries : List (α × β)}
    (inside : ∀ entry ∈ entries, domain entry.1) (distinct : DistinctKeys key entries) {entry entry' : α × β}
    (member : entry ∈ entries) (member' : entry' ∈ entries) (same : key entry.1 entry'.1 = true) : entry = entry' := by
  induction entries with
  | nil => cases member
  | cons first rest ih =>
    obtain ⟨apart, others⟩ := List.pairwise_cons.mp distinct
    have contradiction : ∀ other ∈ rest, key first.1 other.1 = true → False := by
      intro other here same
      rw [apart other here] at same
      cases same
    rcases List.mem_cons.mp member with rfl | here
    · rcases List.mem_cons.mp member' with rfl | there
      · rfl
      · exact (contradiction entry' there same).elim
    · rcases List.mem_cons.mp member' with rfl | there
      · exact (contradiction entry here (equivalence.symm (inside _ member) (inside _ member') same)).elim
      · exact ih (fun entry member => inside entry (List.mem_cons_of_mem _ member)) others here there

/-- A look-up finds an entry with a matching item exactly if there is one. -/
theorem find?_key_iff (equivalence : PartialEquivalence domain fun a b => key a b = true) {entries : List (α × β)}
    (inside : ∀ entry ∈ entries, domain entry.1) (distinct : DistinctKeys key entries) {k : α} (known : domain k) {v : β} :
    (∃ entry, entries.find? (fun entry => key k entry.1) = some entry ∧ item v entry.2) ↔
      ∃ entry ∈ entries, key k entry.1 = true ∧ item v entry.2 := by
  constructor
  · rintro ⟨entry, found, matched⟩
    have same := List.find?_some found
    exact ⟨entry, List.mem_of_find?_eq_some found, same, matched⟩
  · rintro ⟨entry, member, same, matched⟩
    cases found : entries.find? fun entry => key k entry.1 with
    | none =>
      have absent := List.find?_eq_none.mp found entry member
      exact absurd same absent
    | some entry' =>
      have same' := List.find?_some found
      have member' := List.mem_of_find?_eq_some found
      have linked : key entry'.1 entry.1 = true := equivalence.trans (inside _ member') known (inside _ member)
        (equivalence.symm known (inside _ member') same') same
      obtain rfl := eq_of_key equivalence inside distinct member' member linked
      exact ⟨entry', rfl, matched⟩

private theorem exists_partners {entries entries' : List (α × β)} (covered : Covered key item entries entries') :
    ∃ partners, List.Forall₂ (fun entry entry' => entry' ∈ entries' ∧ key entry.1 entry'.1 = true ∧ item entry.2 entry'.2)
      entries partners := by
  induction entries with
  | nil => exact ⟨[], .nil⟩
  | cons first rest ih =>
    obtain ⟨partner, here⟩ := covered first (by simp)
    obtain ⟨partners, others⟩ := ih fun entry member => covered entry (List.mem_cons_of_mem _ member)
    exact ⟨partner :: partners, .cons here others⟩

private theorem partners_distinct (equivalence : PartialEquivalence domain fun a b => key a b = true)
    {entries entries' partners : List (α × β)} (inside : ∀ entry ∈ entries, domain entry.1)
    (inside' : ∀ entry ∈ entries', domain entry.1) (distinct : DistinctKeys key entries)
    (paired : List.Forall₂ (fun entry entry' => entry' ∈ entries' ∧ key entry.1 entry'.1 = true ∧ item entry.2 entry'.2)
      entries partners) : partners.Nodup := by
  induction paired with
  | nil => exact .nil
  | @cons entry partner rest partners here others ih =>
    obtain ⟨apart, further⟩ := List.pairwise_cons.mp distinct
    refine List.nodup_cons.mpr ⟨?_, ih (fun entry member => inside entry (List.mem_cons_of_mem _ member)) further⟩
    intro again
    obtain ⟨other, member, _, same, _⟩ := exists_of_mem_right others again
    have known := inside entry (by simp)
    have known' := inside other (List.mem_cons_of_mem _ member)
    have met := inside' partner here.1
    have linked : key entry.1 other.1 = true := equivalence.trans known met known' here.2.1
      (equivalence.symm known' met same)
    rw [apart other member] at linked
    cases linked

/-- Between tables of one length, without a key twice, it does not matter which is looked up in which. -/
theorem Covered.symm (equivalence : PartialEquivalence domain fun a b => key a b = true) {known : β → Prop}
    (items : PartialEquivalence known item) {entries entries' : List (α × β)} (inside : ∀ entry ∈ entries, domain entry.1)
    (inside' : ∀ entry ∈ entries', domain entry.1) (valued : ∀ entry ∈ entries, known entry.2)
    (valued' : ∀ entry ∈ entries', known entry.2) (distinct : DistinctKeys key entries)
    (length : entries.length = entries'.length) (covered : Covered key item entries entries') :
    Covered key item entries' entries := by
  obtain ⟨partners, paired⟩ := exists_partners covered
  have nodup := partners_distinct equivalence inside inside' distinct paired
  have subset : partners ⊆ entries' := by
    intro partner member
    obtain ⟨_, _, there, _⟩ := exists_of_mem_right paired member
    exact there
  -- As many partners as entries, and no one twice: all entries of the other table are partners.
  have enough : entries'.length ≤ partners.length := Nat.le_of_eq (length.symm.trans paired.length_eq)
  have perm : partners.Perm entries' := (List.subperm_of_subset nodup subset).perm_of_length_le enough
  intro entry' member'
  obtain ⟨entry, member, _, same, matched⟩ := exists_of_mem_right paired (perm.mem_iff.mpr member')
  exact ⟨entry, member, equivalence.symm (inside _ member) (inside' _ member') same,
    items.symm (valued _ member) (valued' _ member') matched⟩

theorem Covered.trans (equivalence : PartialEquivalence domain fun a b => key a b = true) {known : β → Prop}
    (items : PartialEquivalence known item) {first second third : List (α × β)}
    (inside : ∀ entries ∈ [first, second, third], ∀ entry ∈ entries, domain entry.1 ∧ known entry.2)
    (left : Covered key item first second) (right : Covered key item second third) : Covered key item first third := by
  intro entry member
  obtain ⟨entry', member', same, matched⟩ := left entry member
  obtain ⟨entry'', member'', same', matched'⟩ := right entry' member'
  obtain ⟨here, value⟩ := inside first (by simp) entry member
  obtain ⟨here', value'⟩ := inside second (by simp) entry' member'
  obtain ⟨here'', value''⟩ := inside third (by simp) entry'' member''
  exact ⟨entry'', member'', equivalence.trans here here' here'' same same', items.trans value value' value'' matched matched'⟩

end Tables

namespace Value

/-! ### What equality comes down to -/

/-- Items of containers match if they are one object or equal. -/
def ItemEqual (left right : Value) : Prop :=
  identical left right = true ∨ equal left right = some true

theorem andThen_eq_true {first second : Option Bool} : andThen first second = some true ↔ first = some true ∧ second = some true := by
  rcases first with _ | _ | _ <;> simp [andThen]

private theorem item_eq_true {left right : Value} :
    (if identical left right then some true else equal left right) = some true ↔ ItemEqual left right := by
  by_cases one : identical left right = true <;> simp [ItemEqual, one]

theorem equalItems_eq_true {items items' : List Value} :
    equalItems items items' = some true ↔ List.Forall₂ ItemEqual items items' := by
  induction items generalizing items' with
  | nil => cases items' <;> simp [equalItems]
  | cons item items ih =>
    cases items' with
    | nil => simp [equalItems]
    | cons item' items' => rw [equalItems, andThen_eq_true, item_eq_true, ih, List.forall₂_cons]

/-- The entries have their keys in the other dictionary, with equal values. -/
def EntriesEqual (entries entries' : List (Value × Value)) : Prop :=
  ∀ entry ∈ entries, ∃ entry', entries'.find? (fun entry' => same entry.1 entry'.1) = some entry' ∧
    ItemEqual entry.2 entry'.2

theorem equalEntries_eq_true {entries entries' : List (Value × Value)} :
    equalEntries entries entries' = some true ↔ EntriesEqual entries entries' := by
  induction entries with
  | nil => simp [equalEntries, EntriesEqual]
  | cons entry entries ih =>
    obtain ⟨key, value⟩ := entry
    have lookup : (fun entry' : Value × Value => identical key entry'.1 ||
        (equal key entry'.1 == some true && keyedAlike key entry'.1)) = fun entry' => same key entry'.1 := rfl
    rw [equalEntries, lookup]
    simp only [EntriesEqual, List.mem_cons, forall_eq_or_imp]
    cases found : entries'.find? fun entry' => same key entry'.1 with
    | none => simp
    | some entry' =>
      rw [andThen_eq_true, item_eq_true, ih]
      simp [EntriesEqual]

/-- The items of a list or a tuple or the fields of a record, with what they must have in common; a rendered text is a tuple. -/
def held? : Value → Option (Option RecordKind × List Value)
  | list _ items => some (none, items)
  | tuple _ items => some (some .rendered, items)
  | record _ kind fields => some (some kind, fields)
  | _ => none

def entries? : Value → Option (List (Value × Value))
  | dict _ entries => some entries
  | _ => none

/-- The three ways in which values are equal. -/
inductive Equal (left right : Value) : Prop
  | items {kind : Option RecordKind} {items items' : List Value} (here : left.held? = some (kind, items))
      (there : right.held? = some (kind, items')) (all : List.Forall₂ ItemEqual items items')
  | entries {entries entries' : List (Value × Value)} (here : left.entries? = some entries)
      (there : right.entries? = some entries') (length : entries.length = entries'.length)
      (all : EntriesEqual entries entries')
  | worth {worth : Worth} (here : left.worth? = some worth)
      (there : right.worth? = some worth)

private theorem worth?_of_isSignalling {value : Value} (signalling : value.isSignalling = true) : value.worth? = none := by
  cases value with
  | decimalNaN _ _ => rfl
  | _ => simp [isSignalling] at signalling

theorem equalScalar_eq_true {left right : Value} :
    equalScalar left right = some true ↔
      ∃ worth, left.worth? = some worth ∧ right.worth? = some worth := by
  rw [equalScalar]
  split
  · next refused =>
    have signalling : left.isSignalling = true ∨ right.isSignalling = true := by
      simp only [Bool.and_eq_true, Bool.or_eq_true] at refused
      exact refused.2
    rcases signalling with signalling | signalling <;> simp [worth?_of_isSignalling signalling]
  · cases left.worth? with
    | none => simp
    | some a =>
      cases right.worth? with
      | none => simp
      | some b =>
        constructor
        · intro same
          have same : a = b := by simpa using same
          exact ⟨a, rfl, by rw [same]⟩
        · rintro ⟨worth, here, there⟩
          have same : a = b := (Option.some.inj here).trans (Option.some.inj there).symm
          simp [same]

private theorem equal_of_scalar {left right : Value} (items : left.held? = none) (entries : left.entries? = none) :
    equal left right = equalScalar left right := by
  cases left with
  | list _ _ | tuple _ _ | record _ _ _ => cases items
  | dict _ _ => cases entries
  | _ => simp [equal]

theorem equal_eq_true {left right : Value} : equal left right = some true ↔ Equal left right := by
  constructor
  · intro same
    unfold equal at same
    split at same
    · split at same
      · exact .items rfl rfl (equalItems_eq_true.mp same)
      · cases same
    · exact .items rfl rfl (equalItems_eq_true.mp same)
    · exact .items rfl rfl (equalItems_eq_true.mp same)
    · exact .items rfl rfl (equalItems_eq_true.mp same)
    · split at same
      · next kinds =>
        subst kinds
        exact .items rfl rfl (equalItems_eq_true.mp same)
      · cases same
    · split at same
      · next length => exact .entries rfl rfl length (equalEntries_eq_true.mp same)
      · cases same
    · obtain ⟨worth, here, there⟩ := equalScalar_eq_true.mp same
      exact .worth here there
  · rintro (⟨here, there, all⟩ | ⟨here, there, length, all⟩ | ⟨here, there⟩)
    · have same := equalItems_eq_true.mpr all
      cases left <;> cases here <;> cases right <;> cases there
      · rw [equal, if_pos all.length_eq, same]
      · rw [equal, same]
      · rw [equal, same]
      · rw [equal, same]
      · rw [equal, if_pos rfl, same]
    · cases left <;> cases here
      cases right <;> cases there
      rw [equal, if_pos length]
      exact equalEntries_eq_true.mpr all
    · rw [equal_of_scalar]
      · exact equalScalar_eq_true.mpr ⟨_, here, there⟩
      · cases left <;> first | rfl | cases here
      · cases left <;> first | rfl | cases here

/-! ### One key -/

theorem identical_iff {left right : Value} : identical left right = true ↔ ∃ label, left.label? = some label ∧ right.label? = some label := by
  unfold identical
  cases left.label? with
  | none => simp
  | some a =>
    cases right.label? with
    | none => simp
    | some b => simpa using eq_comm

theorem identical_symm {left right : Value} (one : identical left right = true) : identical right left = true := by
  obtain ⟨label, here, there⟩ := identical_iff.mp one
  exact identical_iff.mpr ⟨label, there, here⟩

mutual

theorem keyedAlike_comm (left right : Value) : keyedAlike left right = keyedAlike right left := by
  cases left with
  | time iso =>
    cases right with
    | time iso' =>
      rw [keyedAlike, keyedAlike, sameClockMoment, sameClockMoment]
      exact BEq.comm
    | _ => simp [keyedAlike]
  | tuple _ items | record _ _ items =>
    cases right with
    | tuple _ items' | record _ _ items' => simp only [keyedAlike, allKeyedAlike_comm items items']
    | _ => simp [keyedAlike]
  | _ => cases right <;> simp [keyedAlike]

theorem allKeyedAlike_comm (items items' : List Value) : allKeyedAlike items items' = allKeyedAlike items' items := by
  cases items with
  | nil => cases items' <;> rfl
  | cons item items =>
    cases items' with
    | nil => rfl
    | cons item' items' => rw [allKeyedAlike, allKeyedAlike, keyedAlike_comm item item', allKeyedAlike_comm items items']

end

mutual

theorem keyedAlike_self (value : Value) : keyedAlike value value = true := by
  cases value with
  | time iso => simp [keyedAlike, sameClockMoment]
  | tuple _ items | record _ _ items => rw [keyedAlike, allKeyedAlike_self items]
  | _ => simp [keyedAlike]

theorem allKeyedAlike_self (items : List Value) : allKeyedAlike items items = true := by
  cases items with
  | nil => rfl
  | cons item items => rw [allKeyedAlike, keyedAlike_self item, allKeyedAlike_self items, Bool.and_true]

end

theorem same_iff {left right : Value} :
    same left right = true ↔ identical left right = true ∨ (equal left right = some true ∧ keyedAlike left right = true) := by
  simp [same]

/-! ### Values in memory -/

/-- The values that a value holds: its items, its keys and the values under them, its fields. -/
def children : Value → List Value
  | list _ items | tuple _ items | record _ _ items => items
  | dict _ entries => entries.flatMap fun entry => [entry.1, entry.2]
  | _ => []

theorem sizeOf_child {value child : Value} (member : child ∈ value.children) : sizeOf child < sizeOf value := by
  cases value with
  | list _ items | tuple _ items | record _ _ items =>
    have smaller := List.sizeOf_lt_of_mem (show child ∈ items from member)
    simp
    omega
  | dict _ entries =>
    obtain ⟨entry, inside, part⟩ := List.mem_flatMap.mp member
    have smaller := List.sizeOf_lt_of_mem inside
    obtain ⟨key, under⟩ := entry
    simp only [Prod.mk.sizeOf_spec] at smaller
    simp only [Value.dict.sizeOf_spec]
    rcases (by simpa using part : child = key ∨ child = under) with rfl | rfl <;> omega
  | _ => cases member

/-- What holds of the values in memory: what a value holds is there too, one object is one value, and a dictionary has no key twice. -/
structure Heap (present : Value → Prop) : Prop where
  children : ∀ {value child}, present value → child ∈ value.children → present child
  oneObject : ∀ {left right}, present left → present right → identical left right = true → left = right
  distinctKeys : ∀ {label entries}, present (.dict label entries) → DistinctKeys same entries

section Equivalence

variable {present : Value → Prop}

theorem ItemEqual.of_same {left right : Value} (one : same left right = true) : ItemEqual left right := by
  rcases same_iff.mp one with one | ⟨equal, _⟩
  · exact .inl one
  · exact .inr equal

/-- Among values in memory, one key means matching and naming the same moments. -/
theorem same_iff_itemEqual (heap : Heap present) {left right : Value} (here : present left) (there : present right) :
    same left right = true ↔ ItemEqual left right ∧ keyedAlike left right = true := by
  constructor
  · intro one
    refine ⟨.of_same one, ?_⟩
    rcases same_iff.mp one with one | ⟨_, alike⟩
    · obtain rfl := heap.oneObject here there one
      exact keyedAlike_self left
    · exact alike
  · rintro ⟨one | equal, alike⟩
    · exact same_iff.mpr (.inl one)
    · exact same_iff.mpr (.inr ⟨equal, alike⟩)

/-- Values in memory below some size. -/
private def Below (present : Value → Prop) (size : Nat) (value : Value) : Prop :=
  present value ∧ sizeOf value < size

private theorem Below.succ {size : Nat} {value : Value} (below : Below present size value) : Below present (size + 1) value :=
  ⟨below.1, Nat.lt_succ_of_lt below.2⟩

private theorem items_below (heap : Heap present) {size : Nat} {value : Value} {kind : Option RecordKind} {items : List Value}
    (below : Below present (size + 1) value) (shape : value.held? = some (kind, items)) :
    ∀ item ∈ items, Below present size item := by
  intro item member
  have child : item ∈ value.children := by
    cases value <;> cases shape <;> exact member
  have smaller := sizeOf_child child
  exact ⟨heap.children below.1 child, by have := below.2; omega⟩

private theorem entries_below (heap : Heap present) {size : Nat} {value : Value} {entries : List (Value × Value)}
    (below : Below present (size + 1) value) (shape : value.entries? = some entries) :
    ∀ entry ∈ entries, Below present size entry.1 ∧ Below present size entry.2 := by
  intro entry member
  have child : ∀ part ∈ [entry.1, entry.2], part ∈ value.children := by
    intro part inside
    cases value <;> cases shape
    exact List.mem_flatMap.mpr ⟨entry, member, inside⟩
  have small : ∀ part ∈ [entry.1, entry.2], Below present size part := by
    intro part inside
    have smaller := sizeOf_child (child part inside)
    exact ⟨heap.children below.1 (child part inside), by have := below.2; omega⟩
  exact ⟨small _ (by simp), small _ (by simp)⟩

private theorem distinctKeys_of_entries (heap : Heap present) {value : Value} {entries : List (Value × Value)}
    (here : present value) (shape : value.entries? = some entries) : DistinctKeys same entries := by
  cases value <;> cases shape
  exact heap.distinctKeys here

private theorem entriesEqual_iff {domain : Value → Prop} (keys : PartialEquivalence domain fun a b => same a b = true)
    {entries entries' : List (Value × Value)} (inside : ∀ entry ∈ entries, domain entry.1)
    (inside' : ∀ entry ∈ entries', domain entry.1) (distinct : DistinctKeys same entries') :
    EntriesEqual entries entries' ↔ Covered same ItemEqual entries entries' :=
  forall₂_congr fun entry member => find?_key_iff keys inside' distinct (inside entry member)

private theorem other_shapes (value : Value) :
    (∀ shape, value.held? = some shape → value.entries? = none ∧ value.worth? = none) ∧
    (∀ entries, value.entries? = some entries → value.worth? = none) := by
  cases value <;> simp [held?, entries?, worth?]

section Step

variable {size : Nat}

private theorem equal_symm_step (heap : Heap present) (items : PartialEquivalence (Below present size) ItemEqual)
    (keys : PartialEquivalence (Below present size) fun a b => same a b = true) {left right : Value}
    (here : Below present (size + 1) left) (there : Below present (size + 1) right) (equal : Equal left right) :
    Equal right left := by
  rcases equal with ⟨shape, shape', all⟩ | ⟨shape, shape', length, all⟩ | ⟨shape, shape'⟩
  · exact .items shape' shape (items.forall₂_symm (items_below heap here shape) (items_below heap there shape') all)
  · have below := entries_below heap here shape
    have below' := entries_below heap there shape'
    have distinct := distinctKeys_of_entries heap here.1 shape
    have distinct' := distinctKeys_of_entries heap there.1 shape'
    have covered := (entriesEqual_iff keys (fun e m => (below e m).1) (fun e m => (below' e m).1) distinct').mp all
    have back := covered.symm keys items (fun e m => (below e m).1) (fun e m => (below' e m).1) (fun e m => (below e m).2)
      (fun e m => (below' e m).2) distinct length
    refine .entries shape' shape length.symm ?_
    exact (entriesEqual_iff keys (fun e m => (below' e m).1) (fun e m => (below e m).1) distinct).mpr back
  · exact .worth shape' shape

private theorem equal_trans_step (heap : Heap present) (items : PartialEquivalence (Below present size) ItemEqual)
    (keys : PartialEquivalence (Below present size) fun a b => same a b = true) {first second third : Value}
    (here : Below present (size + 1) first) (there : Below present (size + 1) second)
    (yonder : Below present (size + 1) third) (equal : Equal first second) (equal' : Equal second third) :
    Equal first third := by
  rcases equal with ⟨shape, shape', all⟩ | ⟨shape, shape', length, all⟩ | ⟨shape, shape'⟩
  · have others := (other_shapes second).1 _ shape'
    rcases equal' with ⟨again, shape'', all'⟩ | ⟨again, _, _, _⟩ | ⟨again, _⟩
    · obtain ⟨rfl, rfl⟩ := Prod.mk.inj (Option.some.inj (shape'.symm.trans again))
      exact .items shape shape'' (items.forall₂_trans (items_below heap here shape) (items_below heap there shape')
        (items_below heap yonder shape'') all all')
    · rw [others.1] at again
      cases again
    · rw [others.2] at again
      cases again
  · rcases equal' with ⟨again, _, _⟩ | ⟨again, shape'', length', all'⟩ | ⟨again, _⟩
    · rw [((other_shapes second).1 _ again).1] at shape'
      cases shape'
    · obtain rfl := Option.some.inj (shape'.symm.trans again)
      have below := entries_below heap here shape
      have below' := entries_below heap there shape'
      have below'' := entries_below heap yonder shape''
      have covered := (entriesEqual_iff keys (fun e m => (below e m).1) (fun e m => (below' e m).1)
        (distinctKeys_of_entries heap there.1 shape')).mp all
      have covered' := (entriesEqual_iff keys (fun e m => (below' e m).1) (fun e m => (below'' e m).1)
        (distinctKeys_of_entries heap yonder.1 shape'')).mp all'
      refine .entries shape shape'' (length.trans length') ?_
      refine (entriesEqual_iff keys (fun e m => (below e m).1) (fun e m => (below'' e m).1)
        (distinctKeys_of_entries heap yonder.1 shape'')).mpr (covered.trans keys items ?_ covered')
      intro entries among
      rcases (by simpa using among : entries = _ ∨ entries = _ ∨ entries = _) with rfl | rfl | rfl
      · exact below
      · exact below'
      · exact below''
    · rw [(other_shapes second).2 _ shape'] at again
      cases again
  · rcases equal' with ⟨again, _, _⟩ | ⟨again, _, _, _⟩ | ⟨again, shape''⟩
    · rw [((other_shapes second).1 _ again).2] at shape'
      cases shape'
    · rw [(other_shapes second).2 _ again] at shape'
      cases shape'
    · obtain rfl := Option.some.inj (shape'.symm.trans again)
      exact .worth shape shape''

private theorem forall₂_same (heap : Heap present) {items items' : List Value} (here : ∀ item ∈ items, present item)
    (there : ∀ item ∈ items', present item) (all : List.Forall₂ ItemEqual items items')
    (alike : allKeyedAlike items items' = true) : List.Forall₂ (fun a b => same a b = true) items items' := by
  induction all with
  | nil => exact .nil
  | cons first _ ih =>
    rw [allKeyedAlike, Bool.and_eq_true] at alike
    refine .cons ((same_iff_itemEqual heap (here _ (by simp)) (there _ (by simp))).mpr ⟨first, alike.1⟩) ?_
    exact ih (fun item member => here item (List.mem_cons_of_mem _ member))
      (fun item member => there item (List.mem_cons_of_mem _ member)) alike.2

private theorem allKeyedAlike_of_forall₂ (heap : Heap present) {items items' : List Value}
    (here : ∀ item ∈ items, present item) (there : ∀ item ∈ items', present item)
    (all : List.Forall₂ (fun a b => same a b = true) items items') : allKeyedAlike items items' = true := by
  induction all with
  | nil => rfl
  | cons first _ ih =>
    rw [allKeyedAlike, ((same_iff_itemEqual heap (here _ (by simp)) (there _ (by simp))).mp first).2, Bool.true_and]
    exact ih (fun item member => here item (List.mem_cons_of_mem _ member))
      fun item member => there item (List.mem_cons_of_mem _ member)

private theorem keyedAlike_of_items {left right : Value} {kind : RecordKind} {items items' : List Value}
    (here : left.held? = some (some kind, items)) (there : right.held? = some (some kind, items')) :
    keyedAlike left right = allKeyedAlike items items' := by
  cases left <;> cases here <;> cases right <;> cases there <;> rw [keyedAlike]

private theorem keyedAlike_of_list {left right : Value} {items : List Value} (here : left.held? = some (none, items)) :
    keyedAlike left right = true := by
  cases left <;> cases here
  simp [keyedAlike]

private theorem keyedAlike_of_entries {left right : Value} {entries : List (Value × Value)}
    (here : left.entries? = some entries) : keyedAlike left right = true := by
  cases left <;> cases here
  simp [keyedAlike]

private theorem time_of_worth {iso : Text} {value : Value} (alike : value.worth? = (time iso).worth?) :
    ∃ iso', value = time iso' := by
  have clock : ∀ t : ClockTime, (∃ s m, Worth.ofTime t = .clock s m) ∨ ∃ t', Worth.ofTime t = .localClock t' := by
    intro t
    unfold Worth.ofTime
    cases t.offset <;> simp
  have moment : ∀ iso : Text, (∃ m, Worth.ofDateTime iso = .moment m) ∨ ∃ iso', Worth.ofDateTime iso = .localDateTime iso' := by
    intro iso
    unfold Worth.ofDateTime
    cases universalMoment? iso <;> simp
  cases value with
  | time iso' => exact ⟨iso', rfl⟩
  | dateTime iso' =>
    simp only [worth?, Option.some.injEq] at alike
    rcases moment iso' with ⟨m, here⟩ | ⟨_, here⟩ <;> rcases clock (ClockTime.ofText iso) with ⟨_, _, there⟩ | ⟨_, there⟩ <;>
      rw [here, there] at alike <;> cases alike
  | _ =>
    simp only [worth?, Option.some.injEq, reduceCtorEq] at alike
    try (rcases clock (ClockTime.ofText iso) with ⟨_, _, there⟩ | ⟨_, there⟩ <;> rw [there] at alike <;> cases alike)

private theorem keyedAlike_of_scalar {left right : Value} {worth : Worth} (here : left.worth? = some worth)
    (clocks : ∀ iso iso', left = time iso → right = time iso' → sameClockMoment iso iso' = true) :
    keyedAlike left right = true := by
  cases left with
  | time iso =>
    cases right with
    | time iso' =>
      rw [keyedAlike]
      exact clocks iso iso' rfl rfl
    | _ => simp [keyedAlike]
  | tuple _ _ | record _ _ _ => cases here
  | _ => simp [keyedAlike]

private theorem keyedAlike_trans_step (heap : Heap present) (keys : PartialEquivalence (Below present size) fun a b => same a b = true)
    {first second third : Value} (here : Below present (size + 1) first) (there : Below present (size + 1) second)
    (yonder : Below present (size + 1) third) (equal : Equal first second) (equal' : Equal second third)
    (alike : keyedAlike first second = true) (alike' : keyedAlike second third = true) : keyedAlike first third = true := by
  rcases equal with @⟨kind, _, _, shape, shape', all⟩ | ⟨shape, _, _, _⟩ | ⟨shape, shape'⟩
  · cases kind with
    | none => exact keyedAlike_of_list shape
    | some kind =>
      rcases equal' with ⟨again, shape'', all'⟩ | ⟨again, _, _, _⟩ | ⟨again, _⟩
      · obtain ⟨rfl, rfl⟩ := Prod.mk.inj (Option.some.inj (shape'.symm.trans again))
        have below := items_below heap here shape
        have below' := items_below heap there shape'
        have below'' := items_below heap yonder shape''
        rw [keyedAlike_of_items shape shape'] at alike
        rw [keyedAlike_of_items shape' shape''] at alike'
        rw [keyedAlike_of_items shape shape'']
        have same := forall₂_same heap (fun i m => (below i m).1) (fun i m => (below' i m).1) all alike
        have same' := forall₂_same heap (fun i m => (below' i m).1) (fun i m => (below'' i m).1) all' alike'
        exact allKeyedAlike_of_forall₂ heap (fun i m => (below i m).1) (fun i m => (below'' i m).1)
          (keys.forall₂_trans below below' below'' same same')
      · rw [((other_shapes second).1 _ shape').1] at again
        cases again
      · rw [((other_shapes second).1 _ shape').2] at again
        cases again
  · exact keyedAlike_of_entries shape
  · refine keyedAlike_of_scalar shape ?_
    rintro iso iso'' rfl rfl
    obtain ⟨iso', rfl⟩ := time_of_worth (shape'.trans shape.symm)
    rw [keyedAlike, sameClockMoment, beq_iff_eq] at alike alike'
    rw [sameClockMoment, beq_iff_eq]
    exact alike.trans alike'

end Step

/-- Matching and having one key are symmetric and transitive among the values in memory below any size. -/
private theorem equivalences_below (heap : Heap present) (size : Nat) :
    PartialEquivalence (Below present size) ItemEqual ∧
    PartialEquivalence (Below present size) fun a b => same a b = true := by
  -- Equality of two values rests on both relations between smaller ones: between items, and between keys.
  induction size with
  | zero =>
    have empty : ∀ value, ¬ Below present 0 value := fun value below => Nat.not_lt_zero _ below.2
    exact ⟨⟨fun a => (empty _ a).elim, fun a => (empty _ a).elim⟩, ⟨fun a => (empty _ a).elim, fun a => (empty _ a).elim⟩⟩
  | succ size ih =>
    obtain ⟨items, keys⟩ := ih
    have symm : ∀ {a b}, Below present (size + 1) a → Below present (size + 1) b → ItemEqual a b → ItemEqual b a := by
      intro a b here there matched
      rcases matched with one | equal
      · exact .inl (identical_symm one)
      · exact .inr (equal_eq_true.mpr (equal_symm_step heap items keys here there (equal_eq_true.mp equal)))
    have trans : ∀ {a b c}, Below present (size + 1) a → Below present (size + 1) b → Below present (size + 1) c →
        ItemEqual a b → ItemEqual b c → ItemEqual a c := by
      intro a b c here there yonder matched matched'
      rcases matched with one | equal
      · rw [heap.oneObject here.1 there.1 one]
        exact matched'
      · rcases matched' with one' | equal'
        · rw [← heap.oneObject there.1 yonder.1 one']
          exact .inr equal
        · exact .inr (equal_eq_true.mpr (equal_trans_step heap items keys here there yonder (equal_eq_true.mp equal)
            (equal_eq_true.mp equal')))
    refine ⟨⟨symm, trans⟩, ⟨?_, ?_⟩⟩
    · intro a b here there one
      obtain ⟨matched, alike⟩ := (same_iff_itemEqual heap here.1 there.1).mp one
      exact (same_iff_itemEqual heap there.1 here.1).mpr ⟨symm here there matched, by rw [keyedAlike_comm, alike]⟩
    · intro a b c here there yonder one one'
      rcases same_iff.mp one with object | ⟨equal, alike⟩
      · rw [heap.oneObject here.1 there.1 object]
        exact one'
      · rcases same_iff.mp one' with object' | ⟨equal', alike'⟩
        · rw [← heap.oneObject there.1 yonder.1 object']
          exact one
        · have whole := equal_trans_step heap items keys here there yonder (equal_eq_true.mp equal) (equal_eq_true.mp equal')
          have moments := keyedAlike_trans_step heap keys here there yonder (equal_eq_true.mp equal)
            (equal_eq_true.mp equal') alike alike'
          exact same_iff.mpr (.inr ⟨equal_eq_true.mpr whole, moments⟩)

private theorem below_enough {a b c : Value} (here : present a) (there : present b) (yonder : present c) :
    ∃ size, Below present size a ∧ Below present size b ∧ Below present size c :=
  ⟨sizeOf a + sizeOf b + sizeOf c + 1, ⟨here, by omega⟩, ⟨there, by omega⟩, ⟨yonder, by omega⟩⟩

/-- Having one key is symmetric and transitive among the values in memory. -/
theorem same_equivalence (heap : Heap present) : PartialEquivalence present fun a b => same a b = true := by
  constructor
  · intro a b here there one
    obtain ⟨size, small, small', _⟩ := below_enough here there there
    exact (equivalences_below heap size).2.symm small small' one
  · intro a b c here there yonder one one'
    obtain ⟨size, small, small', small''⟩ := below_enough here there yonder
    exact (equivalences_below heap size).2.trans small small' small'' one one'

/-- Equality is symmetric and transitive among the values in memory. -/
theorem equal_equivalence (heap : Heap present) : PartialEquivalence present fun a b => equal a b = some true := by
  constructor
  · intro a b here there equal
    obtain ⟨size, small, small', _⟩ := below_enough here there there
    obtain ⟨items, keys⟩ := equivalences_below heap size
    exact equal_eq_true.mpr (equal_symm_step heap items keys small.succ small'.succ (equal_eq_true.mp equal))
  · intro a b c here there yonder equal equal'
    obtain ⟨size, small, small', small''⟩ := below_enough here there yonder
    obtain ⟨items, keys⟩ := equivalences_below heap size
    exact equal_eq_true.mpr (equal_trans_step heap items keys small.succ small'.succ small''.succ
      (equal_eq_true.mp equal) (equal_eq_true.mp equal'))

/-! ### There is always an answer -/

private theorem andThen_ne_none {first second : Option Bool} (one : first ≠ none) (two : second ≠ none) :
    andThen first second ≠ none := by
  rcases first with _ | _ | _
  · exact absurd rfl one
  · simp [andThen]
  · exact two

private theorem item_ne_none {left right : Value} (answer : equal left right ≠ none) :
    (if identical left right then some true else equal left right) ≠ none := by
  split
  · simp
  · exact answer

private theorem equalItems_ne_none {items items' : List Value} (answers : ∀ item ∈ items, ∀ item' ∈ items', equal item item' ≠ none) :
    equalItems items items' ≠ none := by
  induction items generalizing items' with
  | nil => cases items' <;> simp [equalItems]
  | cons item items ih =>
    cases items' with
    | nil => simp [equalItems]
    | cons item' items' =>
      rw [equalItems]
      refine andThen_ne_none (item_ne_none (answers item (by simp) item' (by simp))) (ih ?_)
      exact fun a here b there => answers a (List.mem_cons_of_mem _ here) b (List.mem_cons_of_mem _ there)

private theorem equalEntries_ne_none {entries entries' : List (Value × Value)}
    (answers : ∀ entry ∈ entries, ∀ entry' ∈ entries', equal entry.2 entry'.2 ≠ none) :
    equalEntries entries entries' ≠ none := by
  induction entries with
  | nil => simp [equalEntries]
  | cons entry entries ih =>
    rw [equalEntries]
    split
    · simp
    · next found =>
      refine andThen_ne_none (item_ne_none (answers entry (by simp) _ (List.mem_of_find?_eq_some found))) (ih ?_)
      exact fun a here => answers a (List.mem_cons_of_mem _ here)

/-- Without a signalling NaN in them, two values are equal or they are not. -/
theorem equal_ne_none (closed : ∀ {value child}, present value → child ∈ value.children → present child)
    (quiet : ∀ value, present value → value.isSignalling = false) {left right : Value} (here : present left)
    (there : present right) : equal left right ≠ none := by
  induction size : sizeOf left using Nat.strongRecOn generalizing left right with
  | _ n ih =>
    subst size
    have parts : ∀ item ∈ left.children, ∀ item' ∈ right.children, equal item item' ≠ none := fun item inside item' inside' =>
      ih (sizeOf item) (sizeOf_child inside) (closed here inside) (closed there inside') rfl
    unfold equal
    split
    · split
      · exact equalItems_ne_none parts
      · simp
    · exact equalItems_ne_none parts
    · exact equalItems_ne_none parts
    · exact equalItems_ne_none parts
    · split
      · exact equalItems_ne_none parts
      · simp
    · split
      · refine equalEntries_ne_none fun entry inside entry' inside' => parts _ ?_ _ ?_
        · exact List.mem_flatMap.mpr ⟨entry, inside, by simp⟩
        · exact List.mem_flatMap.mpr ⟨entry', inside', by simp⟩
      · simp
    · rw [equalScalar, quiet left here, quiet right there]
      simp

end Equivalence

end Value

end SqlCompose
