import Mathlib
import SqlCompose.Proofs.ClauseVerdicts
import SqlCompose.Proofs.CompactionMeaning

/-!
# Values that can be compared

Compaction compares values, and a signalling NaN cannot be compared with a number. A value without one is quiet, and then so are its copies. Where the values are quiet, or only looked at as keys and objects, compaction of a text that spans their numbers cannot fail, so a statement that is rendered is finished too.
-/

namespace SqlCompose

open Build Value

namespace Value

/-- There is no signalling NaN in the value, at any depth. -/
def IsQuiet (value : Value) : Prop :=
  value.Everywhere fun part => part.isSignalling = false

instance (value : Value) : Decidable value.IsQuiet :=
  inferInstanceAs (Decidable (∀ part ∈ value.parts, part.isSignalling = false))

theorem IsQuiet.child {value child : Value} (quiet : value.IsQuiet) (member : child ∈ value.children) : child.IsQuiet := by
  cases value with
  | list _ items => exact (everywhere_list.mp quiet).2 child member
  | tuple _ items => exact (everywhere_tuple.mp quiet).2 child member
  | record _ _ items => exact (everywhere_record.mp quiet).2 child member
  | dict _ entries =>
    obtain ⟨entry, inside, part⟩ := List.mem_flatMap.mp member
    have both := (everywhere_dict.mp quiet).2 entry inside
    rcases (by simpa using part : child = entry.1 ∨ child = entry.2) with rfl | rfl
    · exact both.1
    · exact both.2
  | _ => cases member

/-! ### Copies -/

mutual

private theorem isQuiet_copyFrom (next : Label) : (value : Value) → ((copyFrom next value).1.IsQuiet ↔ value.IsQuiet)
  | .list _ items => by
    rw [copyFrom, IsQuiet, IsQuiet, everywhere_list, everywhere_list]
    exact and_congr Iff.rfl (isQuiet_copyItems (next + 1) items)
  | .tuple _ items => by
    rw [copyFrom, IsQuiet, IsQuiet, everywhere_tuple, everywhere_tuple]
    exact and_congr Iff.rfl (isQuiet_copyItems (next + 1) items)
  | .record _ .rendered items => by
    rw [copyFrom, IsQuiet, IsQuiet, everywhere_tuple, everywhere_record]
    exact and_congr Iff.rfl (isQuiet_copyItems (next + 1) items)
  | .dict _ entries => by
    rw [copyFrom, IsQuiet, IsQuiet, everywhere_dict, everywhere_dict]
    exact and_congr Iff.rfl (isQuiet_copyEntries (next + 1) entries)
  | .byteArray _ _ => by
    simp [copyFrom, IsQuiet, Everywhere, parts, isSignalling]
  | .null | .bool _ | .int _ | .float _ | .floatNaN _ | .decimal _ | .decimalNaN _ _ | .text _ | .entry _ | .bytes _ | .date _
  | .dateTime _ | .time _ | .duration _ _ _ | .uuid _ | .unbindable _ _ | .object _ _ | .record _ .predicate _
  | .record _ .builtQuery _ | .record _ .orderBy _ | .record _ .columnType _ | .record _ .foreignKey _ => Iff.rfl

private theorem isQuiet_copyItems (next : Label) : (items : List Value) →
    ((∀ item ∈ (copyItems next items).1, item.IsQuiet) ↔ ∀ item ∈ items, item.IsQuiet)
  | [] => by simp [copyItems]
  | item :: items => by
    simp only [copyItems, List.forall_mem_cons]
    exact and_congr (isQuiet_copyFrom next item) (isQuiet_copyItems _ items)

private theorem isQuiet_copyEntries (next : Label) : (entries : List (Value × Value)) →
    ((∀ entry ∈ (copyEntries next entries).1, entry.1.IsQuiet ∧ entry.2.IsQuiet) ↔
      ∀ entry ∈ entries, entry.1.IsQuiet ∧ entry.2.IsQuiet)
  | [] => by simp [copyEntries]
  | (key, value) :: entries => by
    simp only [copyEntries, List.forall_mem_cons]
    exact and_congr (and_congr Iff.rfl (isQuiet_copyFrom next value)) (isQuiet_copyEntries _ entries)

end

/-- Whether values are quiet is a matter of their content. -/
theorem SameContent.quiet {values values' : List Value} (same : SameContent values values')
    (quiet : ∀ value ∈ values', value.IsQuiet) : ∀ value ∈ values, value.IsQuiet := by
  intro value member
  have shown : value.content ∈ values'.map content := same ▸ List.mem_map_of_mem member
  obtain ⟨value', inside, one⟩ := List.mem_map.mp shown
  rw [← isQuiet_copyFrom 0 value]
  change value.content.IsQuiet
  rw [← one]
  exact (isQuiet_copyFrom 0 value').mpr (quiet value' inside)

end Value

/-! ### Finishing -/

/-- Values that can be compared with one another in a sense: in the shallow one all can, and in the deep one those that are quiet. -/
def Sameness.Decides (sameness : Sameness) (values : List Value) : Prop :=
  sameness = .deep → ∀ value ∈ values, value.IsQuiet

theorem Sameness.Decides.answers {sameness : Sameness} {values : List Value} (decides : sameness.Decides values) :
    ∀ kept ∈ values, ∀ value ∈ values, sameness.holds kept value ≠ none := by
  intro kept here value there
  cases sameness with
  | shallow => exact holds_shallow_ne_none kept value
  | deep =>
    exact holds_ne_none (fun quiet member => IsQuiet.child quiet member) (fun _ => Everywhere.self) .deep (decides rfl kept here)
      (decides rfl value there)

/-- Compaction of a text that spans the numbers of values that can be compared comes to its end. -/
theorem Fragment.compact_total {fragment : Fragment} (spans : Spans fragment.text.content 1 fragment.values.length)
    {sameness : Sameness} (decides : sameness.Decides fragment.values) : ∃ result, fragment.compact sameness = .ok result := by
  rw [compact_of_readable spans.readable]
  rcases Compaction.run_cases decides.answers (Compaction.progress_start sameness fragment) fragment.indices with
    ⟨-, state, -, ran, -⟩ | ⟨old, member, outside, -⟩
  · rw [ran]
    exact ⟨_, rfl⟩
  · have bounds := spans.within old member
    exact absurd ⟨bounds.1, by omega⟩ outside

namespace Settings

variable {lacking : Prop} {bound : List Value} {render : Build Fragment}

/-- Whether a statement with these settings is compacted. -/
def compacts (settings : Settings) (compact : Option Bool) : Bool :=
  compact.getD settings.compact.truthy

/-- The sense in which its values are compared then. -/
def sameness (settings : Settings) (deep : Option Bool) : Sameness :=
  if deep.getD settings.deep.truthy then .deep else .shallow

/-- A statement whose rendering fails only for want of a part is finished if its values can be compared; without compaction it stays legible. -/
theorem finish_settles (settings : Settings) (kind : StatementKind) (settles : render.Settles lacking (·.Binds bound))
    {compact deep : Option Bool} (decides : settings.compacts compact = true → (settings.sameness deep).Decides bound) :
    (settings.finish kind render compact deep).Settles lacking fun built =>
      settings.compacts compact = false → built.Holds bound := by
  refine settles.andThen fun fragment binds => ?_
  have unchanged := Identifier.substituteSchemas_of_no_schema settings.schemas binds.spans.schemaless
  refine .known unchanged ?_
  change (do
    let final ← if settings.compacts compact then
      (liftM (Fragment.compact (settings.sameness deep) ⟨.plain fragment.text.content, fragment.values⟩) : Build Fragment)
      else pure ⟨.plain fragment.text.content, fragment.values⟩
    Build.log Clause.queryLogger .debug
      ("Built " ++ Keyword.word kind ++ " query with " ++ Text.ofNat final.values.length ++ " parameter(s)")
    BuiltQuery.ofParts final.text.toValue final.values : Build BuiltQuery).Settles _ _
  cases asked : settings.compacts compact with
  | true =>
    have fits : (settings.sameness deep).Decides fragment.values := fun isDeep => binds.same.quiet (decides asked isDeep)
    obtain ⟨result, done⟩ := @Fragment.compact_total ⟨.plain fragment.text.content, fragment.values⟩ binds.spans _ fits
    rw [if_pos rfl, done]
    refine (Settles.log _ _ _).after fun _ _ => (BuiltQuery.settles_ofParts _ _).mono fun _ _ never => ?_
    cases never
  | false =>
    rw [if_neg (by decide), pure_bind]
    refine (Settles.log _ _ _).after fun _ _ => ?_
    exact (BuiltQuery.settles_make binds.spans binds.same).mono fun _ holds _ => holds

end Settings

end SqlCompose
