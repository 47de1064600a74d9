import Mathlib
import SqlCompose.Proofs.ClosedNames
import SqlCompose.Proofs.QuotedNames
import SqlCompose.Proofs.Yields
import SqlCompose.Query

/-!
# Output names

An insertion without a column list takes over the columns of the statement that it inserts. What it takes for the output name of a reference is found by a reader of its own, `OutputColumn.ofReference?`, which knows fewer forms of a reference than the quoting of columns does: one qualifier, double quotes, word characters and dollar signs. A reference of any other form is taken as a name itself.

`Identifier.outputName` is the output name by the rules of the quoting, and `Insert.targetName_eq_iff` says for which references the two agree.
-/

namespace SqlCompose

namespace Identifier

/-- The name under which a reference gives its values: the alias, or the last segment. -/
def outputName (reference : Text) : Text :=
  match splitAlias? reference with
  | some (_, name) => Text.trim name
  | none => (((Text.split '.' (Text.trim reference)).map Text.trim).getLast?).getD []

/-- A reference is written with its output name at the end, behind an alias or behind its qualifiers. -/
def Shows (flavor : Flavor) (reference text : Text) : Prop :=
  (∃ column name table, splitAlias? reference = some (column, name) ∧ quoteTable flavor column = .ok table ∧
    text = table ++ " AS " ++ quote flavor (outputName reference)) ∨
  (splitAlias? reference = none ∧ ∃ qualifiers, segments reference = .ok (qualifiers ++ [outputName reference]) ∧
    text = Text.join "." (qualifiers.map (quote flavor) ++ [quote flavor (outputName reference)]))

variable {flavor : Flavor} {reference : Text}

theorem shows_of_quoteColumn {text : Text} (done : quoteColumn flavor reference = .ok text) : Shows flavor reference text := by
  unfold quoteColumn at done
  split at done
  · next column name found =>
    obtain ⟨table, quoted, rfl⟩ := Outcome.map_eq_ok.mp done
    exact .inl ⟨column, name, table, found, quoted, by simp [outputName, found]⟩
  · next found =>
    obtain ⟨parts, cut, rfl⟩ := Outcome.map_eq_ok.mp done
    have shape : parts = (Text.split '.' (Text.trim reference)).map Text.trim := by
      simp only [segments] at cut
      split at cut
      · cases cut
      · exact (Except.ok.inj cut).symm
    have some : parts ≠ [] := by simpa [shape] using Text.split_ne_nil '.' _
    have last : outputName reference = parts.getLast some := by simp [outputName, found, ← shape, List.getLast?_eq_some_getLast some]
    have whole : parts.dropLast ++ [outputName reference] = parts := by rw [last, List.dropLast_append_getLast]
    refine .inr ⟨found, parts.dropLast, by rw [whole, cut], ?_⟩
    rw [← List.map_singleton, ← List.map_append, whole]

end Identifier

/-! ### Pieces of a reference -/

namespace Text

theorem trim_of_ends {text : Text} (first : ∀ c ∈ text.head?, isBlank c = false) (last : ∀ c ∈ text.getLast?, isBlank c = false) :
    trim text = text := by
  have front : text.dropWhile isBlank = text := by
    cases text with
    | nil => rfl
    | cons c rest => exact List.dropWhile_cons_of_neg (by simp [first c rfl])
  have back : text.reverse.dropWhile isBlank = text.reverse := by
    rw [← List.head?_reverse] at last
    cases reversed : text.reverse with
    | nil => rfl
    | cons c rest =>
      rw [reversed] at last
      exact List.dropWhile_cons_of_neg (by simp [last c rfl])
  rw [trim, front, back, List.reverse_reverse]

theorem split_of_not_mem {separator : Char} {text : Text} (absent : separator ∉ text) : split separator text = [text] := by
  induction text with
  | nil => rfl
  | cons c rest ih =>
    rw [List.mem_cons, not_or] at absent
    rw [split, if_neg (Ne.symm absent.1), ih absent.2]

theorem not_mem_of_mem_split {separator : Char} {text piece : Text} (member : piece ∈ split separator text) : separator ∉ piece := by
  induction text generalizing piece with
  | nil =>
    rw [List.mem_singleton.mp member]
    exact List.not_mem_nil
  | cons c rest ih =>
    rw [split] at member
    split at member
    · rcases List.mem_cons.mp member with rfl | further
      · exact List.not_mem_nil
      · exact ih further
    · next other =>
      cases cut : split separator rest with
      | nil => exact absurd cut (split_ne_nil separator rest)
      | cons first others =>
        rw [cut] at member ih
        rcases List.mem_cons.mp member with rfl | further
        · rw [List.mem_cons, not_or]
          exact ⟨Ne.symm other, ih List.mem_cons_self⟩
        · exact ih (List.mem_cons_of_mem _ further)

end Text

namespace Identifier

variable {flavor : Flavor} {reference : Text}

/-- A letter of the word `AS`. -/
private def isA (c : Char) : Bool :=
  c = 'a' || c = 'A'

private theorem aliasAfterAs?_shape {text name : Text} (found : aliasAfterAs? text = some name) :
    ∃ a between, text = a :: (between ++ name) ∧ isA a = true := by
  unfold aliasAfterAs? at found
  split at found
  · next a s c rest =>
    simp only at found
    split at found
    · next holds =>
      obtain rfl := Option.some.inj found
      simp only [Bool.and_eq_true] at holds
      refine ⟨a, s :: (c :: rest).takeWhile Text.isBlank, ?_, holds.1.1.1.1⟩
      rw [List.cons_append, List.takeWhile_append_dropWhile]
    · cases found
  · cases found

private theorem splitAliasAfter_shape {before text column name : Text}
    (found : splitAliasAfter before text = some (column, name)) :
    ∃ gap a between, before.reverse ++ text = column ++ (gap ++ a :: (between ++ name)) ∧ isA a = true := by
  induction text generalizing before with
  | nil => cases found
  | cons c rest ih =>
    rw [splitAliasAfter] at found
    split at found
    · next shortName here =>
      obtain ⟨rfl, rfl⟩ := Prod.mk.inj (Option.some.inj found)
      split at here
      · obtain ⟨a, between, shape, letter⟩ := aliasAfterAs?_shape here
        refine ⟨(c :: rest).takeWhile Text.isBlank, a, between, ?_, letter⟩
        rw [← shape, List.takeWhile_append_dropWhile]
      · cases here
    · split at found
      · cases found
      · obtain ⟨gap, a, between, shape, letter⟩ := ih found
        rw [List.reverse_cons, List.append_assoc] at shape
        exact ⟨gap, a, between, shape, letter⟩

/-! ### When two names are quoted alike -/

/-- The names that are written without further quotes. -/
def isKept (flavor : Flavor) (name : Text) : Bool :=
  name = "*" || isSchemaToken name || isQuoted flavor name

theorem enclose_injective (flavor : Flavor) : Function.Injective (enclose flavor) := by
  intro left right same
  have read (name : Text) : readQuoted flavor (enclose flavor name) = some (name, []) :=
    readQuoted_eq_some.mpr ⟨by rw [List.append_nil], by simp⟩
  have names := (read left).symm.trans ((congrArg (readQuoted flavor) same).trans (read right))
  exact (Prod.mk.inj (Option.some.inj names)).1

theorem isKept_enclose (flavor : Flavor) (name : Text) : isKept flavor (enclose flavor name) = true := by
  have quoted : isQuoted flavor (enclose flavor name) = true := isQuoted_iff.mpr ⟨_, rfl⟩
  rw [isKept, quoted, Bool.or_true]

/-- Two names are written alike if they are the same, or if one is the other in quotes already. -/
theorem quote_eq_quote_iff (flavor : Flavor) (left right : Text) : quote flavor left = quote flavor right ↔
    left = right ∨ (isKept flavor right = false ∧ left = enclose flavor right) ∨
      (isKept flavor left = false ∧ right = enclose flavor left) := by
  have kept (name : Text) : quote flavor name = if isKept flavor name then name else enclose flavor name := rfl
  rw [kept, kept]
  constructor
  · intro same
    cases first : isKept flavor left <;> cases second : isKept flavor right <;> simp only [first, second] at same
    · exact .inl (enclose_injective flavor same)
    · exact .inr (.inr ⟨rfl, same.symm⟩)
    · exact .inr (.inl ⟨rfl, same⟩)
    · exact .inl same
  · rintro (rfl | ⟨plain, rfl⟩ | ⟨plain, rfl⟩)
    · rfl
    · simp [isKept_enclose, plain]
    · simp [isKept_enclose, plain]

/-! ### References that are names -/

private theorem isInfix_outputName (reference : Text) : outputName reference <:+: reference := by
  unfold outputName
  split
  · next column name found =>
    obtain ⟨-, inside⟩ := splitAlias?_infix found
    exact (Text.trim_infix name).trans inside
  · cases last : ((Text.split '.' (Text.trim reference)).map Text.trim).getLast? with
    | none => exact ⟨[], reference, rfl⟩
    | some name =>
      obtain ⟨piece, inside, rfl⟩ := List.mem_map.mp (List.mem_of_getLast? last)
      exact (Text.trim_infix piece).trans ((Text.split_infix inside).trans (Text.trim_infix reference))

private theorem length_lt_enclose (flavor : Flavor) (name : Text) : name.length < (enclose flavor name).length := by
  have doubled : name.length ≤ (Text.double flavor.quotes.2 name).length := by
    rw [Text.double]
    induction name with
    | nil => exact Nat.le_refl _
    | cons c name ih =>
      rw [List.flatMap_cons, List.length_append, List.length_cons]
      split <;> simp only [List.length_cons, List.length_nil] <;> omega
  rw [enclose, List.cons_append, List.length_cons, List.length_append]
  omega

private theorem countP_enclose {kind : Char → Bool} (opening : kind flavor.quotes.1 = false) (closing : kind flavor.quotes.2 = false)
    (name : Text) : (enclose flavor name).countP kind = name.countP kind := by
  have doubled : (Text.double flavor.quotes.2 name).countP kind = name.countP kind := by
    rw [Text.double]
    induction name with
    | nil => rfl
    | cons c name ih =>
      rw [List.flatMap_cons, List.countP_append, ih, List.countP_cons]
      split
      · next same => simp [same, closing]
      · simp [List.countP_cons, Nat.add_comm]
  rw [enclose, List.cons_append, List.countP_cons, List.countP_append, doubled, opening]
  simp [closing]

theorem ne_enclose_outputName (flavor : Flavor) (reference : Text) : reference ≠ enclose flavor (outputName reference) := by
  intro same
  have unblank : Text.isBlank flavor.quotes.1 = false ∧ Text.isBlank flavor.quotes.2 = false := by cases flavor <;> decide
  have trimmed : Text.trim reference = reference := by
    rw [same]
    refine Text.trim_of_ends ?_ ?_
    · rintro c ⟨⟩
      exact unblank.1
    · intro c last
      rw [enclose, List.getLast?_concat] at last
      obtain rfl := Option.some.inj last
      exact unblank.2
  cases found : splitAlias? reference with
  | some parts =>
    -- The word in front of the alias has a letter that the alias in quotes has not.
    obtain ⟨column, name⟩ := parts
    obtain ⟨gap, a, between, shape, letter⟩ := splitAliasAfter_shape found
    rw [List.reverse_nil, List.nil_append, trimmed] at shape
    have fewer : (outputName reference).countP isA ≤ name.countP isA := by
      have inside : outputName reference <:+: name := by
        rw [outputName, found]
        exact Text.trim_infix name
      exact inside.sublist.countP_le
    have count := congrArg (List.countP isA) same
    rw [countP_enclose (by cases flavor <;> decide) (by cases flavor <;> decide)] at count
    have whole := congrArg (List.countP isA) shape
    simp only [List.countP_append, List.countP_cons, letter, if_true] at whole
    omega
  | none =>
    have dotless : '.' ∉ outputName reference := by
      intro dot
      unfold outputName at dot
      rw [found] at dot
      simp only at dot
      cases last : ((Text.split '.' (Text.trim reference)).map Text.trim).getLast? with
      | none =>
        rw [last] at dot
        cases dot
      | some name =>
        rw [last] at dot
        obtain ⟨piece, inside, rfl⟩ := List.mem_map.mp (List.mem_of_getLast? last)
        exact Text.not_mem_of_mem_split inside ((Text.trim_infix piece).subset dot)
    have whole : '.' ∉ reference := by
      intro dot
      have count := congrArg (List.countP (· == '.')) same
      rw [countP_enclose (by cases flavor <;> decide) (by cases flavor <;> decide)] at count
      have some : 0 < reference.countP (· == '.') := List.countP_pos_iff.mpr ⟨'.', dot, beq_self_eq_true '.'⟩
      rw [count] at some
      obtain ⟨c, member, isDot⟩ := List.countP_pos_iff.mp some
      exact dotless (by rwa [← beq_iff_eq.mp isDot])
    have single : outputName reference = reference := by
      rw [outputName, found, trimmed, Text.split_of_not_mem whole]
      simp [trimmed]
    have longer := length_lt_enclose flavor (outputName reference)
    rw [← same, single] at longer
    omega

theorem outputName_ne_enclose (flavor : Flavor) (reference : Text) : outputName reference ≠ enclose flavor reference := by
  intro same
  have shorter := (isInfix_outputName reference).length_le
  have longer := length_lt_enclose flavor reference
  rw [← same] at longer
  omega

end Identifier

/-! ### The columns of an insertion -/

namespace Insert

open Identifier

/-- What an insertion takes for the output name of a reference. -/
def targetName (reference : Text) : Text :=
  (OutputColumn.ofReference? reference).getD reference

private theorem not_isNamePart_closing (flavor : Flavor) : OutputColumn.isNamePart flavor.quotes.2 = false := by
  cases flavor <;> decide

/-- A reference is listed under its output name exactly if the name that is found in it is the output name, or is its output name without quotes. Where no name is found, the reference has to be the output name itself. -/
theorem targetName_eq_iff (flavor : Flavor) (reference : Text) :
    quote flavor (targetName reference) = quote flavor (outputName reference) ↔
      match OutputColumn.ofReference? reference with
      | some name => outputName reference = name ∨ isSchemaToken name = false ∧ outputName reference = enclose flavor name
      | none => outputName reference = reference := by
  rw [quote_eq_quote_iff, targetName]
  cases found : OutputColumn.ofReference? reference with
  | none =>
    rw [Option.getD_none]
    constructor
    · rintro (same | ⟨-, same⟩ | ⟨-, same⟩)
      · exact same.symm
      · exact absurd same (ne_enclose_outputName flavor reference)
      · exact absurd same (outputName_ne_enclose flavor reference)
    · exact fun same => .inl same.symm
  | some name =>
    have parts := (OutputColumn.ofReference?_some found).2
    have open' : ∀ inner, name ≠ enclose flavor inner := by
      rintro inner rfl
      have part := parts flavor.quotes.2 (by simp [enclose])
      rw [not_isNamePart_closing] at part
      cases part
    have kept : isKept flavor name = isSchemaToken name := by
      have all : name ≠ "*" := by
        rintro rfl
        exact absurd (parts '*' (by simp)) (by decide)
      have unquoted : isQuoted flavor name = false := by
        by_contra quoted
        obtain ⟨body, rfl⟩ := isQuoted_iff.mp (by simpa using quoted)
        have part := parts flavor.quotes.2 (by simp)
        rw [not_isNamePart_closing] at part
        cases part
      rw [isKept, decide_eq_false all, unquoted, Bool.false_or, Bool.or_false]
    rw [Option.getD_some, kept]
    constructor
    · rintro (same | ⟨-, same⟩ | ⟨plain, same⟩)
      · exact .inl same.symm
      · exact absurd same (open' _)
      · exact .inr ⟨plain, same⟩
    · rintro (same | ⟨plain, same⟩)
      · exact .inl same.symm
      · exact .inr (.inr ⟨plain, same⟩)

/-- References that are quoted without fail, what they say, and what they are written as. -/
private theorem exists_references {flavor : Flavor} {fields : List Field}
    (accepted : ∀ field ∈ fields, field.raw = false ∧ ∃ text, quoteColumnValue flavor field.value = .ok text) :
    ∃ references texts, List.Forall₂ (fun field reference => field.value.asReference = .ok reference) fields references ∧
      Field.renderAll flavor fields = .ok texts ∧ List.Forall₂ (Shows flavor) references texts := by
  have all : ∃ references texts, List.Forall₂ (fun (field : Field) reference => field.value.asReference = .ok reference) fields references ∧
      List.Forall₂ (fun field text => field.render flavor = .ok text) fields (texts.map .text) ∧
      List.Forall₂ (Shows flavor) references texts := by
    induction fields with
    | nil => exact ⟨[], [], .nil, .nil, .nil⟩
    | cons field fields ih =>
      obtain ⟨here, there⟩ := List.forall_mem_cons.mp accepted
      obtain ⟨references, texts, read, rendered, shown⟩ := ih there
      obtain ⟨quoted, text, done⟩ := here
      obtain ⟨reference, given, written⟩ := Outcome.bind_eq_ok.mp done
      refine ⟨reference :: references, text :: texts, .cons given read, .cons ?_ rendered, .cons (shows_of_quoteColumn written) shown⟩
      rw [Field.render, quoted, if_neg (by simp), done]
      rfl
  obtain ⟨references, texts, read, rendered, shown⟩ := all
  refine ⟨references, texts, read, ?_, shown⟩
  have written : (texts.map Value.text).mapM Value.asText = .ok texts :=
    Outcome.mapM_eq_ok.mpr (List.forall₂_map_left_iff.mpr (List.forall₂_same.mpr fun _ _ => rfl))
  rw [Field.renderAll, Outcome.mapM_eq_ok.mpr rendered]
  exact written

private theorem asText_of_asReference {value : Value} {text : Text} (given : value.asReference = .ok text) : value.asText = .ok text := by
  cases value <;> first | exact given | cases given

/-- An insertion without a column list, of a statement whose column list has references only. It lists one column for each of them, in order; `targetName_eq_iff` says whether it is the output name that the statement writes for this reference. -/
theorem columns_of_select {Q : Type} (insert : Insert Q) (unlisted : insert.columns = []) (select : Select Query)
    (nonempty : select.fields ≠ [])
    (accepted : ∀ field ∈ select.fields, field.raw = false ∧ ∃ text, quoteColumnValue select.settings.flavor field.value = .ok text) :
    ∃ references texts, List.Forall₂ (fun field reference => field.value.asReference = .ok reference) select.fields references ∧
      select.selected = .ok texts ∧ List.Forall₂ (Shows select.settings.flavor) references texts ∧
      insert.targetColumns (Query.of (.select select)).toChild =
        .ok (references.map fun reference => quote insert.settings.flavor (targetName reference)) ∧
      (∀ start clause, (insert.sourceClause (Query.of (.select select)).toChild start).Yields (some clause) →
        ∃ target source, clause.text = "INSERT INTO " ++ target ++ " (" ++
          Text.join ", " (references.map fun reference => quote insert.settings.flavor (targetName reference)) ++ ")\n" ++ source) ∧
      ∀ reference ∈ references,
        (quote insert.settings.flavor (targetName reference) = quote insert.settings.flavor (outputName reference) ↔
          match OutputColumn.ofReference? reference with
          | some name => outputName reference = name ∨
              isSchemaToken name = false ∧ outputName reference = enclose insert.settings.flavor name
          | none => outputName reference = reference) := by
  obtain ⟨references, texts, read, rendered, shown⟩ := exists_references accepted
  have columns : (Query.of (.select select)).toChild.columns = .ok (select.fields.map (·.value)) := by
    rw [Query.toChild, Query.fold_of]
    rfl
  have listed : insert.targetColumns (Query.of (.select select)).toChild =
      .ok (references.map fun reference => quote insert.settings.flavor (targetName reference)) := by
    rw [targetColumns, unlisted, columns]
    refine Outcome.mapM_eq_ok.mpr (List.forall₂_map_left_iff.mpr (List.forall₂_map_right_iff.mpr (read.imp fun field reference given => ?_)))
    rw [targetColumn, asText_of_asReference given]
    rfl
  refine ⟨references, texts, read, ?_, shown, listed, ?_, fun reference _ => targetName_eq_iff _ reference⟩
  · rw [Select.selected, if_neg (by simpa using nonempty), rendered]
  · intro start clause yields
    have some : references ≠ [] := by
      rintro rfl
      exact nonempty (List.forall₂_nil_right_iff.mp read)
    obtain ⟨target, -, yields⟩ := yields.bind
    obtain ⟨columns, found, yields⟩ := yields.bind
    obtain rfl := Except.ok.inj (listed.symm.trans (Build.yields_lift.mp found))
    obtain ⟨built, -, yields⟩ := yields.bind
    obtain ⟨fragment, -, yields⟩ := yields.bind
    obtain ⟨inner, -, yields⟩ := yields.bind
    obtain rfl := Option.some.inj (Build.yields_pure.mp yields)
    exact ⟨target, inner.text.printed, by simp [some]⟩

/-- A column with a qualifier, and one with an alias. -/
private def twoColumns : Select Query :=
  { table := .text "users", fields := [⟨.text "u.id", false⟩, ⟨.text "u.name AS full_name", false⟩] }

/-- Both columns are listed under their output names. -/
theorem columns_of_twoColumns :
    (∀ field ∈ twoColumns.fields, field.raw = false ∧ ∃ text, quoteColumnValue twoColumns.settings.flavor field.value = .ok text) ∧
    ({ table := .text "archive" } : Insert Query).targetColumns (Query.of (.select twoColumns)).toChild =
      .ok [quote .postgres (outputName "u.id"), quote .postgres (outputName "u.name AS full_name")] := by
  have accepted : ∀ field ∈ twoColumns.fields,
      field.raw = false ∧ ∃ text, quoteColumnValue twoColumns.settings.flavor field.value = .ok text := by
    intro field member
    rcases (by simpa [twoColumns] using member : field = ⟨.text "u.id", false⟩ ∨ field = ⟨.text "u.name AS full_name", false⟩) with rfl | rfl
    · exact ⟨rfl, "\"u\".\"id\"", rfl⟩
    · exact ⟨rfl, "\"u\".\"name\" AS \"full_name\"", rfl⟩
  obtain ⟨references, texts, read, -, -, listed, -, names⟩ :=
    columns_of_select ({ table := .text "archive" } : Insert Query) rfl twoColumns (by decide) accepted
  obtain rfl : references = [("u.id" : Text), ("u.name AS full_name" : Text)] := by
    obtain ⟨first, _, here, further, rfl⟩ := List.forall₂_cons_left_iff.mp read
    obtain ⟨second, _, there, rest, rfl⟩ := List.forall₂_cons_left_iff.mp further
    rw [List.forall₂_nil_left_iff.mp rest, ← Except.ok.inj here, ← Except.ok.inj there]
  have first := (names "u.id" (by simp)).mpr (.inl rfl)
  have second := (names "u.name AS full_name" (by simp)).mpr (.inl rfl)
  refine ⟨accepted, listed.trans ?_⟩
  rw [List.map_cons, List.map_cons, first, second]
  rfl

/-- A column with two qualifiers is listed as a whole, though its output name is its last segment. -/
theorem qualified_column_is_listed_whole :
    quoteColumn .postgres "s.users.id" = .ok "\"s\".\"users\".\"id\"" ∧
    quote .postgres (outputName "s.users.id") = "\"id\"" ∧
    ({ table := .text "archive" } : Insert Query).targetColumns
      (Query.of (.select { table := .text "users", fields := [⟨.text "s.users.id", false⟩] })).toChild =
        .ok ["\"s.users.id\""] := by
  refine ⟨by rfl, by rfl, ?_⟩
  rw [Query.toChild, Query.fold_of]
  rfl

end Insert

end SqlCompose
