import Mathlib
import SqlCompose.Proofs.Yields
import SqlCompose.Query

/-!
# Grouped columns

A selection can be grouped by the given columns and by its column list. Each column is listed once, where it first comes, and the wildcard is left out.

The column list is taken as it was rendered for the selection, so a column with an alias is grouped by with its alias, where a grouping has room for an expression only. The clause is what it should be as long as no reference has an alias.
-/

namespace SqlCompose

/-! ### First occurrences -/

/-- The list has the same items as the other one, in the order in which they first come there, and so each of them once. -/
structure FirstOccurrences (items list : List Text) : Prop where
  mem : ∀ item, item ∈ list ↔ item ∈ items
  inOrder : list.Pairwise fun first second => items.idxOf first < items.idxOf second

namespace FirstOccurrences

variable {items list : List Text}

theorem nodup (first : FirstOccurrences items list) : list.Nodup := by
  refine first.inOrder.imp fun before same => ?_
  rw [same] at before
  exact Nat.lt_irrefl _ before

theorem unique {other : List Text} (first : FirstOccurrences items list) (second : FirstOccurrences items other) : list = other := by
  have same : list.Perm other := (List.perm_ext_iff_of_nodup first.nodup second.nodup).mpr fun item =>
    (first.mem item).trans (second.mem item).symm
  exact same.eq_of_pairwise (fun _ _ _ _ before after => absurd after (Nat.lt_asymm before)) first.inOrder second.inOrder

theorem concat_old (first : FirstOccurrences items list) {item : Text} (old : item ∈ items) : FirstOccurrences (items ++ [item]) list where
  mem other := by
    rw [first.mem, List.mem_append, List.mem_singleton]
    exact ⟨.inl, fun either => either.elim id fun same => same ▸ old⟩
  inOrder := by
    refine first.inOrder.imp_of_mem fun here there before => ?_
    rwa [List.idxOf_append_of_mem ((first.mem _).mp here), List.idxOf_append_of_mem ((first.mem _).mp there)]

theorem concat_new (first : FirstOccurrences items list) {item : Text} (new : item ∉ items) :
    FirstOccurrences (items ++ [item]) (list ++ [item]) where
  mem other := by rw [List.mem_append, List.mem_append, first.mem]
  inOrder := by
    rw [List.pairwise_append]
    refine ⟨first.inOrder.imp_of_mem fun here there before => ?_, List.pairwise_singleton _ _, fun other here last member => ?_⟩
    · rwa [List.idxOf_append_of_mem ((first.mem _).mp here), List.idxOf_append_of_mem ((first.mem _).mp there)]
    · obtain rfl := List.mem_singleton.mp member
      have inside := (first.mem other).mp here
      rw [List.idxOf_append_of_mem inside, List.idxOf_append_of_notMem new]
      exact Nat.lt_of_lt_of_le (List.idxOf_lt_length_iff.mpr inside) (Nat.le_add_right _ _)

theorem eraseDups (items : List Text) : FirstOccurrences items items.eraseDups := by
  induction items using List.reverseRecOn with
  | nil => exact ⟨fun _ => Iff.rfl, .nil⟩
  | append_singleton items item ih =>
    by_cases old : item ∈ items
    · have same : (items ++ [item]).eraseDups = items.eraseDups := by
        rw [List.eraseDups_append, List.removeAll]
        simp [old]
      exact same ▸ ih.concat_old old
    · have same : (items ++ [item]).eraseDups = items.eraseDups ++ [item] := by
        rw [List.eraseDups_append, List.removeAll]
        simp [old, List.eraseDups_cons]
      exact same ▸ ih.concat_new old

theorem iff_eq : FirstOccurrences items list ↔ list = items.eraseDups :=
  ⟨fun first => first.unique (eraseDups items), fun same => same ▸ eraseDups items⟩

end FirstOccurrences

/-! ### References with an alias -/

namespace Identifier

/-- A reference without its alias. -/
def columnOf (reference : Text) : Text :=
  ((splitAlias? reference).map (·.1)).getD reference

/-- What is written behind the column of a reference. -/
def aliasSuffix (flavor : Flavor) (reference : Text) : Text :=
  match splitAlias? reference with
  | some (_, name) => " AS " ++ quote flavor (Text.trim name)
  | none => []

variable {flavor : Flavor} {reference : Text}

theorem quoteColumn_eq (flavor : Flavor) (reference : Text) :
    quoteColumn flavor reference = (quoteTable flavor (columnOf reference)).map (· ++ aliasSuffix flavor reference) := by
  unfold quoteColumn columnOf aliasSuffix
  cases splitAlias? reference with
  | none =>
    simp only [Option.map_none, Option.getD_none, List.append_nil]
    cases quoteTable flavor reference <;> rfl
  | some parts => simp only [Option.map_some, Option.getD_some, List.append_assoc]

theorem aliasSuffix_eq_nil : aliasSuffix flavor reference = [] ↔ splitAlias? reference = none := by
  unfold aliasSuffix
  cases splitAlias? reference <;> simp

end Identifier

/-! ### The clause -/

namespace Select

open Identifier

variable {Q : Type} {flavor : Flavor}

/-- The columns of references, quoted, without the aliases. -/
def bareColumns (flavor : Flavor) (references : List Text) : Except Error (List Text) :=
  references.mapM fun reference => quoteTable flavor (columnOf reference)

/-- Columns with the aliases of the references that they come from. -/
def withAliases (flavor : Flavor) (references columns : List Text) : List Text :=
  List.zipWith (fun reference column => column ++ aliasSuffix flavor reference) references columns

/-- All but the wildcard. -/
def withoutWildcard (texts : List Text) : List Text :=
  texts.filter fun (text : Text) => text != "*"

theorem quoteColumns_eq_ok {values : List Value} {texts : List Text} :
    quoteColumns flavor values = .ok texts ↔ ∃ references columns, values.mapM Value.asReference = .ok references ∧
      bareColumns flavor references = .ok columns ∧ texts = withAliases flavor references columns := by
  induction values generalizing texts with
  | nil =>
    constructor
    · rintro ⟨⟩
      exact ⟨[], [], rfl, rfl, rfl⟩
    · rintro ⟨_, _, ⟨⟩, ⟨⟩, rfl⟩
      rfl
  | cons value values ih =>
    rw [quoteColumns, Outcome.mapM_eq_ok, List.forall₂_cons_left_iff]
    constructor
    · rintro ⟨text, rest, here, there, rfl⟩
      obtain ⟨reference, read, quoted⟩ := Outcome.bind_eq_ok.mp here
      rw [quoteColumn_eq] at quoted
      obtain ⟨column, written, rfl⟩ := Outcome.map_eq_ok.mp quoted
      obtain ⟨references, columns, further, all, rfl⟩ := ih.mp (Outcome.mapM_eq_ok.mpr there)
      refine ⟨reference :: references, column :: columns, ?_, ?_, rfl⟩
      · exact Outcome.mapM_eq_ok.mpr (.cons read (Outcome.mapM_eq_ok.mp further))
      · exact Outcome.mapM_eq_ok.mpr (.cons written (Outcome.mapM_eq_ok.mp all))
    · rintro ⟨_, _, read, quoted, rfl⟩
      obtain ⟨reference, references, here, further, rfl⟩ := List.forall₂_cons_left_iff.mp (Outcome.mapM_eq_ok.mp read)
      obtain ⟨column, columns, written, all, rfl⟩ := List.forall₂_cons_left_iff.mp (Outcome.mapM_eq_ok.mp quoted)
      refine ⟨_, _, ?_, Outcome.mapM_eq_ok.mp (ih.mpr ⟨references, columns, Outcome.mapM_eq_ok.mpr further, Outcome.mapM_eq_ok.mpr all, rfl⟩), rfl⟩
      exact Outcome.bind_eq_ok.mpr ⟨reference, here, by rw [quoteColumn_eq, written]; rfl⟩

/-- A list of references is rendered as its columns are quoted. -/
theorem renderAll_references {fields : List Field} (references : ∀ field ∈ fields, field.raw = false) :
    Field.renderAll flavor fields = quoteColumns flavor (fields.map (·.value)) := by
  have rendered : fields.mapM (Field.render flavor) = (quoteColumns flavor (fields.map (·.value))).map (List.map Value.text) := by
    induction fields with
    | nil => rfl
    | cons field fields ih =>
      obtain ⟨quoted, others⟩ := List.forall_mem_cons.mp references
      rw [List.mapM_cons, ih others, Field.render, quoted, if_neg Bool.false_ne_true, List.map_cons]
      simp only [quoteColumns, List.mapM_cons]
      cases quoteColumnValue flavor field.value with
      | error error => rfl
      | ok text => cases List.mapM (quoteColumnValue flavor) (fields.map (·.value)) <;> rfl
  rw [Field.renderAll, rendered]
  cases quoteColumns flavor (fields.map (·.value)) with
  | error error => rfl
  | ok texts => exact Outcome.mapM_eq_ok.mpr (List.forall₂_map_left_iff.mpr (List.forall₂_same.mpr fun _ _ => rfl))

theorem withoutWildcard_selected {select : Select Q} (references : ∀ field ∈ select.fields, field.raw = false) :
    select.selected.map withoutWildcard = (quoteColumns select.settings.flavor (select.fields.map (·.value))).map withoutWildcard := by
  unfold selected
  split
  · next empty =>
    rw [List.isEmpty_iff.mp empty]
    rfl
  · rw [renderAll_references references]

/-- Which columns a selection is grouped by that is grouped by its column list too. -/
theorem grouping_eq_ok {select : Select Q} (grouped : select.groupBySelected.truthy) (references : ∀ field ∈ select.fields, field.raw = false)
    {groups : List Text} :
    select.grouping = .ok groups ↔ ∃ given listed, quoteColumns select.settings.flavor select.groups = .ok given ∧
      quoteColumns select.settings.flavor (select.fields.map (·.value)) = .ok listed ∧
      FirstOccurrences (given ++ withoutWildcard listed) groups := by
  have same := withoutWildcard_selected references
  have shape : select.grouping = (do
      let given ← quoteColumns select.settings.flavor select.groups
      return (given ++ (← select.selected.map withoutWildcard)).eraseDups) := by
    simp only [grouping, grouped, if_true]
    cases select.selected <;> rfl
  rw [shape, same, Outcome.bind_eq_ok]
  refine exists_congr fun given => ?_
  rw [Outcome.bind_eq_ok]
  constructor
  · rintro ⟨quoted, _, found, done⟩
    obtain ⟨listed, read, rfl⟩ := Outcome.map_eq_ok.mp found
    exact ⟨listed, quoted, read, FirstOccurrences.iff_eq.mpr (Except.ok.inj done).symm⟩
  · rintro ⟨listed, quoted, read, first⟩
    exact ⟨quoted, _, Outcome.map_eq_ok.mpr ⟨listed, read, rfl⟩, congrArg Except.ok (FirstOccurrences.iff_eq.mp first).symm⟩

/-- Columns show no alias exactly if their references have none. -/
theorem withAliases_eq_self_iff {references columns : List Text} (length : columns.length = references.length) :
    withAliases flavor references columns = columns ↔ ∀ reference ∈ references, splitAlias? reference = none := by
  induction references generalizing columns with
  | nil =>
    obtain rfl := List.length_eq_zero_iff.mp length
    simp [withAliases]
  | cons reference references ih =>
    obtain ⟨column, columns, rfl⟩ := List.exists_cons_of_length_eq_add_one length
    rw [withAliases, List.zipWith_cons_cons, List.cons.injEq, List.append_right_eq_self, aliasSuffix_eq_nil, List.forall_mem_cons]
    exact and_congr_right fun _ => ih (Nat.succ.inj length)

theorem append_aliasSuffix_ne (column : Text) {reference : Text} (aliased : splitAlias? reference ≠ none) :
    column ++ aliasSuffix flavor reference ≠ "*" := by
  intro same
  have length := congrArg List.length same
  unfold aliasSuffix at length
  cases found : splitAlias? reference with
  | none => exact aliased found
  | some parts =>
    simp only [found, List.length_append] at length
    change _ + (4 + _) = 1 at length
    omega

/-- The clause of a selection that is grouped by its column list, when this has references only. The clause lists the given columns and then the columns that were selected, each with its alias, once each where it first comes. Without aliases these are the expressions to group by. With an alias they can be so only if the column with the alias in it was given as well. -/
theorem groupClause_of_references (select : Select Q) (grouped : select.groupBySelected.truthy)
    (references : ∀ field ∈ select.fields, field.raw = false) (clause : Option Text) :
    select.groupClause.Yields clause ↔ ∃ given references columns groups,
      quoteColumns select.settings.flavor select.groups = .ok given ∧
      (select.fields.map (·.value)).mapM Value.asReference = .ok references ∧
      bareColumns select.settings.flavor references = .ok columns ∧
      FirstOccurrences (given ++ withoutWildcard (withAliases select.settings.flavor references columns)) groups ∧
      clause = (if groups.isEmpty then none else some ("GROUP BY " ++ Text.join ", " groups)) ∧
      ((∀ reference ∈ references, splitAlias? reference = none) → FirstOccurrences (given ++ withoutWildcard columns) groups) ∧
      (FirstOccurrences (given ++ withoutWildcard columns) groups → ∀ pair ∈ references.zip columns, splitAlias? pair.1 ≠ none →
        pair.2 ++ aliasSuffix select.settings.flavor pair.1 ∈ given ++ columns) := by
  have yields : select.groupClause.Yields clause ↔ ∃ groups, select.grouping = .ok groups ∧
      clause = if groups.isEmpty then none else some ("GROUP BY " ++ Text.join ", " groups) := by
    have shape : select.groupClause = (liftM (select.grouping.map fun groups =>
        if groups.isEmpty then none else some ("GROUP BY " ++ Text.join ", " groups)) : Build (Option Text)) := by
      unfold groupClause
      cases select.grouping <;> rfl
    rw [shape, Build.yields_lift, Outcome.map_eq_ok]
    exact exists_congr fun groups => and_congr_right fun _ => eq_comm
  rw [yields]
  constructor
  · rintro ⟨groups, done, rfl⟩
    obtain ⟨given, _, quoted, listed, first⟩ := (grouping_eq_ok grouped references).mp done
    obtain ⟨references, columns, read, bare, rfl⟩ := quoteColumns_eq_ok.mp listed
    have length : columns.length = references.length := (Outcome.mapM_eq_ok.mp bare).length_eq.symm
    refine ⟨given, references, columns, groups, quoted, read, bare, first, rfl, fun plain => ?_, fun bareOnly pair member aliased => ?_⟩
    · rwa [(withAliases_eq_self_iff length).mpr plain] at first
    · have shown : pair.2 ++ aliasSuffix select.settings.flavor pair.1 ∈ withoutWildcard (withAliases select.settings.flavor references columns) := by
        refine List.mem_filter.mpr ⟨?_, by simpa using append_aliasSuffix_ne pair.2 aliased⟩
        rw [withAliases, ← List.map_uncurry_zip_eq_zipWith]
        exact List.mem_map.mpr ⟨pair, member, rfl⟩
      have inside := (first.mem _).mpr (List.mem_append_right given shown)
      obtain there | there := List.mem_append.mp ((bareOnly.mem _).mp inside)
      · exact List.mem_append_left _ there
      · exact List.mem_append_right _ (List.mem_of_mem_filter there)
  · rintro ⟨given, references', columns, groups, quoted, read, bare, first, rfl, -⟩
    exact ⟨groups, (grouping_eq_ok grouped references).mpr
      ⟨given, _, quoted, quoteColumns_eq_ok.mpr ⟨references', columns, read, bare, rfl⟩, first⟩, rfl⟩

/-- The wildcard and two columns, of which one is given as well. -/
private def plainColumns : Select Query :=
  { table := .text "users", fields := [⟨.text "*", false⟩, ⟨.text "id", false⟩, ⟨.text "u.name", false⟩],
    groups := [.text "u.name"], groupBySelected := .bool true }

/-- The given column comes first and is not repeated, and the wildcard is left out. -/
theorem groupClause_of_plainColumns :
    plainColumns.groupBySelected.truthy ∧ (∀ field ∈ plainColumns.fields, field.raw = false) ∧
    plainColumns.groupClause.Yields (some "GROUP BY \"u\".\"name\", \"id\"") := by
  have references : ∀ field ∈ plainColumns.fields, field.raw = false := by simp [plainColumns]
  refine ⟨rfl, references, (groupClause_of_references plainColumns rfl references _).mpr ?_⟩
  have first : FirstOccurrences [("\"u\".\"name\"" : Text), ("\"id\"" : Text), ("\"u\".\"name\"" : Text)]
      [("\"u\".\"name\"" : Text), ("\"id\"" : Text)] := FirstOccurrences.iff_eq.mpr (by decide)
  refine ⟨[("\"u\".\"name\"" : Text)], [("*" : Text), ("id" : Text), ("u.name" : Text)],
    [("*" : Text), ("\"id\"" : Text), ("\"u\".\"name\"" : Text)], _, rfl, rfl, rfl, first, rfl, fun _ => first, fun _ => ?_⟩
  decide

/-- A column with an alias is grouped by with its alias. -/
theorem alias_in_groupClause :
    ({ table := .text "orders", fields := [⟨.text "o.total AS amount", false⟩], groupBySelected := .bool true } : Select Query).groupClause.Yields
      (some "GROUP BY \"o\".\"total\" AS \"amount\"") ∧
    bareColumns .postgres [("o.total AS amount" : Text)] = .ok [("\"o\".\"total\"" : Text)] ∧
    ¬ FirstOccurrences [("\"o\".\"total\"" : Text)] [("\"o\".\"total\" AS \"amount\"" : Text)] := by
  refine ⟨⟨{}, {}, rfl⟩, rfl, fun first => ?_⟩
  exact absurd (FirstOccurrences.iff_eq.mp first) (by decide)

end Select

end SqlCompose
