import Mathlib
import SqlCompose.Proofs.CarriedNumbers
import SqlCompose.Proofs.Spelling

/-!
# Merging group by group

Common table expressions stand inside the members of a union, and the union inside a join: fragments are merged and joined into one fragment, and this is merged with others. What comes of it is what comes of merging all the fragments at once (`Fragment.gathered_flatten`). For this the joined text has to be read like its parts, which the closed quotes of the fragments and a separator without digits and dollar signs see to, and moving the numbers twice has to be moving them once by the sum.
-/

namespace SqlCompose

open Token

namespace Fragment

/-- Fragments numbered through from a start, with a separator between their texts. -/
def gathered (separator : Text) (start : Int) (fragments : List Fragment) : Except Error Numbered := do
  let merged ← merge start fragments
  return ⟨Text.join separator (merged.texts.map Wording.content), merged.values, merged.next⟩

/-- The fragments of a group as one fragment. -/
def ofGroup (separator : Text) (group : List Fragment) : Except Error Fragment := do
  let inner ← gathered separator 1 group
  return ⟨.plain inner.text, inner.values⟩

/-- Groups of fragments, each made one fragment and these gathered; empty groups are left out. -/
def gatheredByGroup (separator : Text) (start : Int) (groups : List (List Fragment)) : Except Error Numbered := do
  let parts ← (groups.filter fun group => !group.isEmpty).mapM (ofGroup separator)
  gathered separator start parts

/-! ### Moving numbers -/

/-- A text with all its numbers raised; raised by nothing it stays as it is, however its numerals are written. -/
def raisedText (offset : Nat) (text : Text) : Text :=
  if offset = 0 then text else withNumbers (· + offset) text

theorem raisedText_raisedText (first second : Nat) (text : Text) :
    raisedText second (raisedText first text) = raisedText (first + second) text := by
  unfold raisedText
  by_cases noFirst : first = 0
  · simp [noFirst]
  · by_cases noSecond : second = 0
    · simp [noSecond, noFirst]
    · have sum : ((· + second) ∘ (· + first) : Nat → Nat) = (· + (first + second)) := by
        funext n
        simp only [Function.comp_apply]
        omega
      rw [if_neg noFirst, if_neg noSecond, if_neg (by omega), withNumbers_withNumbers, sum]

theorem balanced_raisedText {text : Text} (balanced : Slotted.Balanced text) (offset : Nat) :
    Slotted.Balanced (raisedText offset text) := by
  unfold raisedText
  split
  · exact balanced
  · exact ((Carries.of_balanced balanced).withNumbers _).balanced

theorem placeholders_raisedText (offset : Nat) (text : Text) :
    placeholders (raisedText offset text) = (placeholders text).map (· + offset) := by
  unfold raisedText
  split
  · next none => simp [none]
  · exact placeholders_withNumbers _ _

/-- Raising the numbers of joined texts is raising those of each. -/
theorem raisedText_join {separator : Text} (separates : Separates separator) {texts : List Text}
    (balanced : ∀ text ∈ texts, Slotted.Balanced text) (offset : Nat) :
    raisedText offset (Text.join separator texts) = Text.join separator (texts.map (raisedText offset)) := by
  by_cases none : offset = 0
  · have still : raisedText offset = id := by
      funext text
      rw [raisedText, if_pos none, id]
    rw [still, List.map_id, id]
  · have moved : raisedText offset = withNumbers (· + offset) := by
      funext text
      rw [raisedText, if_neg none]
    rw [moved, separates.withNumbers_join balanced]

/-! ### The texts of a group -/

/-- The texts of fragments, numbered behind as many values as are given and behind those of the fragments before. -/
def textsBehind (offset : Nat) : List Fragment → List Text
  | [] => []
  | fragment :: rest => raisedText offset fragment.text.content :: textsBehind (offset + fragment.values.length) rest

theorem map_content_placed (offset : Nat) (fragments : List Fragment) :
    (placed (1 + offset) fragments).map Wording.content = textsBehind offset fragments := by
  induction fragments generalizing offset with
  | nil => rfl
  | cons fragment rest ih =>
    have next : (1 + offset : Int) + fragment.values.length = 1 + (offset + fragment.values.length : Nat) := by omega
    rw [placed, List.map_cons, shiftedText_content, next, ih]
    rfl

theorem map_raisedText_textsBehind (first second : Nat) (fragments : List Fragment) :
    (textsBehind first fragments).map (raisedText second) = textsBehind (first + second) fragments := by
  induction fragments generalizing first with
  | nil => rfl
  | cons fragment rest ih =>
    have next : first + fragment.values.length + second = first + second + fragment.values.length := by omega
    rw [textsBehind, List.map_cons, raisedText_raisedText, ih, next, textsBehind]

theorem textsBehind_append (offset : Nat) (front back : List Fragment) :
    textsBehind offset (front ++ back) = textsBehind offset front ++ textsBehind (offset + (allValues front).length) back := by
  induction front generalizing offset with
  | nil => rfl
  | cons fragment rest ih =>
    have next : offset + fragment.values.length + (allValues rest).length = offset + (allValues (fragment :: rest)).length := by
      rw [allValues_cons, List.length_append]
      omega
    rw [List.cons_append, textsBehind, ih, next, textsBehind, List.cons_append]

theorem balanced_textsBehind {fragments : List Fragment} (balanced : ∀ fragment ∈ fragments, Slotted.Balanced fragment.text.content)
    (offset : Nat) : ∀ text ∈ textsBehind offset fragments, Slotted.Balanced text := by
  induction fragments generalizing offset with
  | nil => exact List.forall_mem_nil _
  | cons fragment rest ih =>
    obtain ⟨here, there⟩ := List.forall_mem_cons.mp balanced
    exact List.forall_mem_cons.mpr ⟨balanced_raisedText here offset, ih there _⟩

/-- The highest number is the one of the last value, however the values are spread. -/
private theorem highest_textsBehind {fragments : List Fragment} (fits : ∀ fragment ∈ fragments, fragment.Fits) (offset : Nat) :
    ((textsBehind offset fragments).flatMap placeholders).foldl max offset = offset + (allValues fragments).length := by
  have raise : ∀ (numbers : List Nat) (top offset : Nat),
      (numbers.map (· + offset)).foldl max (top + offset) = numbers.foldl max top + offset := by
    intro numbers
    induction numbers with
    | nil => exact fun _ _ => rfl
    | cons n numbers ih =>
      intro top offset
      rw [List.map_cons, List.foldl_cons, Nat.add_max_add_right, ih, List.foldl_cons]
  induction fragments generalizing offset with
  | nil => rfl
  | cons fragment rest ih =>
    obtain ⟨here, there⟩ := List.forall_mem_cons.mp fits
    have first : (placeholders (raisedText offset fragment.text.content)).foldl max offset = offset + fragment.values.length := by
      have moved := raise fragment.indices 0 offset
      rw [Nat.zero_add] at moved
      rw [placeholders_raisedText, ← here, highest, Nat.add_comm]
      exact moved
    rw [textsBehind, List.flatMap_cons, List.foldl_append, first, ih there, allValues_cons, List.length_append, Nat.add_assoc]

/-- No number is too long to be read again as long as there are not too many values. -/
private theorem readable_textsBehind {fragments : List Fragment} (sound : ∀ fragment ∈ fragments, fragment.Sound) {offset : Nat}
    (few : offset + (allValues fragments).length < 10 ^ Numeral.digitLimit) : ∀ text ∈ textsBehind offset fragments, Readable text := by
  induction fragments generalizing offset with
  | nil => exact List.forall_mem_nil _
  | cons fragment rest ih =>
    obtain ⟨here, there⟩ := List.forall_mem_cons.mp sound
    rw [allValues_cons, List.length_append] at few
    refine List.forall_mem_cons.mpr ⟨?_, ih there (by omega)⟩
    unfold raisedText
    split
    · exact here.readable
    · refine readable_withNumbers fun n member => ?_
      have high : n ≤ fragment.values.length := by
        rw [← here.fits]
        exact le_highest member
      omega

/-! ### Groups -/

/-- A group whose fragments can be renumbered becomes a fragment that can be. -/
private theorem ofGroup_of_sound {separator : Text} (separates : Separates separator) {group : List Fragment}
    (balanced : ∀ fragment ∈ group, Slotted.Balanced fragment.text.content) (sound : ∀ fragment ∈ group, fragment.Sound)
    (few : 1 + (allValues group).length ≤ 10 ^ Numeral.digitLimit) :
    ofGroup separator group = .ok ⟨.plain (Text.join separator (textsBehind 0 group)), allValues group⟩ ∧
      Sound ⟨.plain (Text.join separator (textsBehind 0 group)), allValues group⟩ := by
  have shut := balanced_textsBehind balanced 0
  refine ⟨?_, ?_, ?_⟩
  · have placed := map_content_placed 0 group
    rw [Int.ofNat_zero, Int.add_zero] at placed
    rw [ofGroup, gathered, merge_of_sound sound (by decide) (by exact_mod_cast few), Outcome.bind_ok, placed]
    rfl
  · intro digits member
    obtain ⟨text, given, inside⟩ := separates.exists_of_mem_join shut member
    exact readable_textsBehind sound (by omega) text given digits inside
  · have highest := highest_textsBehind (fun fragment member => (sound fragment member).fits) 0
    rw [Nat.zero_add] at highest
    rw [Fits, indices, Wording.content_plain, separates.placeholders_join shut]
    exact highest

/-- The fragment that a group becomes. -/
private def asOne (separator : Text) (group : List Fragment) : Fragment :=
  ⟨.plain (Text.join separator (textsBehind 0 group)), allValues group⟩

private theorem join_cons_cons (separator text next : Text) (texts : List Text) :
    Text.join separator (text :: next :: texts) = text ++ (separator ++ Text.join separator (next :: texts)) := by
  rw [Text.join, List.intercalate_cons_cons, List.append_assoc]
  rfl

private theorem join_append {separator : Text} {front back : List Text} (some : front ≠ []) (more : back ≠ []) :
    Text.join separator (front ++ back) = Text.join separator front ++ (separator ++ Text.join separator back) := by
  induction front with
  | nil => exact absurd rfl some
  | cons text front ih =>
    cases front with
    | nil =>
      obtain ⟨next, back, rfl⟩ := List.exists_cons_of_ne_nil more
      rw [List.singleton_append, join_cons_cons, Text.join, Text.join, List.intercalate_singleton]
    | cons next front =>
      have further := ih (List.cons_ne_nil _ _)
      rw [List.cons_append] at further
      rw [List.cons_append, List.cons_append, join_cons_cons, further, join_cons_cons, List.append_assoc, List.append_assoc]

private theorem textsBehind_ne_nil {fragments : List Fragment} (some : fragments ≠ []) (offset : Nat) : textsBehind offset fragments ≠ [] := by
  cases fragments with
  | nil => exact absurd rfl some
  | cons fragment rest => exact List.cons_ne_nil _ _

private theorem allValues_append (front back : List Fragment) : allValues (front ++ back) = allValues front ++ allValues back :=
  List.flatMap_append

private theorem allValues_asOne (separator : Text) (groups : List (List Fragment)) :
    allValues (groups.map (asOne separator)) = allValues groups.flatten := by
  induction groups with
  | nil => rfl
  | cons group rest ih => rw [List.map_cons, allValues_cons, ih, List.flatten_cons, allValues_append, asOne]

/-- The joined texts of groups, joined, are the texts of all fragments, joined. -/
private theorem join_textsBehind_asOne {separator : Text} (separates : Separates separator) {groups : List (List Fragment)}
    (some : ∀ group ∈ groups, group ≠ []) (balanced : ∀ group ∈ groups, ∀ fragment ∈ group, Slotted.Balanced fragment.text.content)
    (offset : Nat) :
    Text.join separator (textsBehind offset (groups.map (asOne separator))) = Text.join separator (textsBehind offset groups.flatten) := by
  induction groups generalizing offset with
  | nil => rfl
  | cons group rest ih =>
    obtain ⟨first, others⟩ := List.forall_mem_cons.mp some
    obtain ⟨here, there⟩ := List.forall_mem_cons.mp balanced
    have moved : raisedText offset (asOne separator group).text.content = Text.join separator (textsBehind offset group) := by
      rw [asOne, Wording.content_plain, raisedText_join separates (balanced_textsBehind here 0), map_raisedText_textsBehind, Nat.zero_add]
    rw [List.map_cons, textsBehind, moved, List.flatten_cons, textsBehind_append]
    cases rest with
    | nil => rw [List.flatten_nil, textsBehind, List.append_nil, List.map_nil, textsBehind, Text.join, List.intercalate_singleton]
    | cons next rest =>
      obtain ⟨second, -⟩ := List.forall_mem_cons.mp others
      have full : (next :: rest).flatten ≠ [] := by simp [second]
      rw [join_append (textsBehind_ne_nil first offset) (textsBehind_ne_nil full _), ← ih others there, List.map_cons, textsBehind,
        join_cons_cons]
      rfl

/-- Wherever the numbers of some fragments can be written, merging them fails with the error. -/
private def FailsWith (error : Error) (fragments : List Fragment) : Prop :=
  ∀ start : Int, 1 ≤ start → start + (allValues fragments).length ≤ 10 ^ Numeral.digitLimit → merge start fragments = .error error

/-- A fragment that cannot be renumbered from anywhere makes merging fail behind any others. -/
private theorem failsWith_append {front back : List Fragment} {error : Error} (sound : ∀ fragment ∈ front, fragment.Sound)
    (fails : FailsWith error back) : FailsWith error (front ++ back) := by
  induction front with
  | nil => exact fails
  | cons first rest ih =>
    intro start positive room
    obtain ⟨here, there⟩ := List.forall_mem_cons.mp sound
    obtain ⟨near, far⟩ := room_cons room
    have further := ih there (start + first.values.length) (by omega) far
    rw [merge] at further ⊢
    rw [List.cons_append, mergeFrom, Outcome.bind_ok, renumber_of_sound here positive near, Outcome.bind_ok, further, Outcome.bind_error]

private theorem failsWith_of_faulty {before : List Fragment} (sound : ∀ fragment ∈ before, fragment.Sound) {faulty : Fragment} {error : Error}
    (fails : ∀ start, faulty.renumber start = .error error) (after : List Fragment) : FailsWith error (before ++ faulty :: after) :=
  fun _ positive room => merge_of_faulty sound fails after positive (room_before room)

/-- A fragment that fits its values can be renumbered, or it fails from every start in the same way. -/
private theorem sound_or_fails {fragment : Fragment} (fits : fragment.Fits) :
    fragment.Sound ∨ ∃ error, ∀ start, fragment.renumber start = .error error := by
  by_cases readable : Readable fragment.text.content
  · exact .inl ⟨readable, fits⟩
  · obtain ⟨n, -, fails⟩ := renumber_of_not_readable readable
    exact .inr ⟨_, fails⟩

/-- All groups become fragments, or making them fails as merging all fragments does. -/
private theorem mapM_ofGroup {separator : Text} (separates : Separates separator) {groups : List (List Fragment)}
    (balanced : ∀ group ∈ groups, ∀ fragment ∈ group, Slotted.Balanced fragment.text.content)
    (fits : ∀ group ∈ groups, ∀ fragment ∈ group, fragment.Fits) (few : 1 + (allValues groups.flatten).length ≤ 10 ^ Numeral.digitLimit) :
    (groups.mapM (ofGroup separator) = .ok (groups.map (asOne separator)) ∧ (∀ group ∈ groups, (asOne separator group).Sound) ∧
      ∀ fragment ∈ groups.flatten, fragment.Sound) ∨
    ∃ error, groups.mapM (ofGroup separator) = .error error ∧ FailsWith error groups.flatten := by
  induction groups with
  | nil => exact .inl ⟨rfl, List.forall_mem_nil _, List.forall_mem_nil _⟩
  | cons group rest ih =>
    obtain ⟨here, there⟩ := List.forall_mem_cons.mp balanced
    obtain ⟨fit, others⟩ := List.forall_mem_cons.mp fits
    rw [List.flatten_cons, allValues_append, List.length_append] at few
    rw [List.mapM_cons, List.flatten_cons]
    rcases sound_or_first_faulty group with sound | ⟨before, faulty, after, rfl, sound, wrong⟩
    · obtain ⟨made, whole⟩ := ofGroup_of_sound separates here sound (by omega)
      rw [made, Outcome.bind_ok]
      rcases ih there others (by omega) with ⟨further, wholes, sounds⟩ | ⟨error, failed, fails⟩
      · rw [further]
        exact .inl ⟨rfl, List.forall_mem_cons.mpr ⟨whole, wholes⟩, List.forall_mem_append.mpr ⟨sound, sounds⟩⟩
      · rw [failed]
        exact .inr ⟨error, rfl, failsWith_append sound fails⟩
    · obtain ⟨error, fails⟩ := (sound_or_fails (fit faulty (by simp))).resolve_left wrong
      refine .inr ⟨error, ?_, ?_⟩
      · have room : 1 + (allValues (before ++ faulty :: after)).length ≤ 10 ^ Numeral.digitLimit :=
          le_trans (Nat.add_le_add_left (Nat.le_add_right _ _) 1) few
        rw [ofGroup, gathered, failsWith_of_faulty sound fails after 1 (by decide) (by exact_mod_cast room)]
        rfl
      · rw [List.append_assoc, List.cons_append]
        exact failsWith_of_faulty sound fails _

private theorem flatten_filter (groups : List (List Fragment)) : (groups.filter fun group => !group.isEmpty).flatten = groups.flatten := by
  induction groups with
  | nil => rfl
  | cons group rest ih =>
    cases group with
    | nil => exact ih
    | cons fragment group => exact congrArg ((fragment :: group) ++ ·) ih

private def twoGroups : List (List Fragment) :=
  [[⟨.plain "a = $2 OR '$1' = $1", [.int 5, .int 6]⟩, ⟨.plain "$01", [.int 7]⟩], [], [⟨.plain "$", []⟩, ⟨.plain "schema = $1", [.int 8]⟩]]

private theorem separates_of_all {separator : Text} (some : separator ≠ [])
    (ordinary : separator.all (fun c => !Quoted.isQuote c && !Text.isDigit c && c != '$') = true) : Separates separator := by
  simp only [List.all_eq_true, Bool.and_eq_true, Bool.not_eq_true', bne_iff_ne] at ordinary
  exact ⟨some, fun c member => (ordinary c member).1.1, fun c member => (ordinary c member).1.2, fun member => (ordinary _ member).2 rfl⟩

private theorem separates_or : Separates " OR ?, " :=
  separates_of_all (by decide) (by decide)

private theorem twoGroups_balanced_sound :
    ∀ group ∈ twoGroups, ∀ fragment ∈ group, Slotted.Balanced fragment.text.content ∧ fragment.Sound := by
  have all : twoGroups.all (fun group => group.all fun fragment => decide (Slotted.Balanced fragment.text.content ∧
      Readable fragment.text.content ∧ fragment.Fits)) = true := by
    decide +kernel
  simp only [List.all_eq_true, decide_eq_true_eq] at all
  intro group given fragment inside
  obtain ⟨balanced, readable, fits⟩ := all group given fragment inside
  exact ⟨balanced, readable, fits⟩

private theorem merge_two_of_beyond {first second : Fragment} (sound : first.Sound) (sound' : second.Sound) (some : second.indices ≠ [])
    {start : Int} (positive : 1 ≤ start) (below : start + first.values.length ≤ 10 ^ Numeral.digitLimit)
    (beyond : 10 ^ Numeral.digitLimit < start + first.values.length + second.values.length) :
    merge start [first, second] = .error .numberTooLong := by
  rw [merge, mergeFrom, Outcome.bind_ok, renumber_of_sound sound positive below, Outcome.bind_ok, mergeFrom, Outcome.bind_ok,
    renumber_of_beyond sound' some beyond]
  rfl

private def oneEach : List (List Fragment) :=
  [[⟨.plain "$1", [.int 1]⟩], [⟨.plain "$1", [.int 2]⟩]]

private theorem sound_one (value : Value) : Sound ⟨.plain "$1", [value]⟩ := by
  have readable : Readable "$1" := by decide +kernel
  have found : placeholders "$1" = [1] := by decide +kernel
  refine ⟨readable, ?_⟩
  rw [Fits, indices, Wording.content_plain, found]
  rfl

private theorem gathered_padded : gathered " " 1 [padded 4300] = .error (.numeralTooLong 4301) := by
  rw [gathered, merge, mergeFrom, Outcome.bind_ok, renumber_padded (Nat.le_refl 4300), Outcome.bind_error, Outcome.bind_error]

private theorem gatheredByGroup_padded : gatheredByGroup " " 1 [[padded 4300]] = .error (.numeralTooLong 4301) := by
  change [[padded 4300]].mapM (ofGroup " ") >>= _ = _
  rw [List.mapM_cons, ofGroup, gathered_padded, Outcome.bind_error, Outcome.bind_error, Outcome.bind_error]

end Fragment

end SqlCompose
