import Mathlib
import SqlCompose.Proofs.OutputNames

/-!
# References quoted once

A table reference is a sequence of segments between dots, and blanks around a segment do not count. Quoting a reference quotes its segments one by one, and what comes out is again a reference with as many segments. All of them are written as they will stay: quoting a reference that has been quoted changes nothing.

No two references without quotes are quoted alike, unless their segments are the same.
-/

namespace SqlCompose

/-! ### Blanks at the ends -/

namespace Text

theorem trim_behind_blanks {blanks : Text} (blank : ∀ c ∈ blanks, isBlank c) (text : Text) : trim (blanks ++ text) = trim text := by
  rw [trim, List.dropWhile_append_of_pos blank, trim]

theorem trim_before_blanks {blanks : Text} (blank : ∀ c ∈ blanks, isBlank c) (text : Text) : trim (text ++ blanks) = trim text := by
  have none : blanks.dropWhile isBlank = [] := List.dropWhile_eq_nil_iff.mpr blank
  have backwards : ∀ c ∈ blanks.reverse, isBlank c := fun c member => blank c (List.mem_reverse.mp member)
  rw [trim, trim, List.dropWhile_append]
  split
  · next empty => simp [none, List.isEmpty_iff.mp empty]
  · rw [List.reverse_append, List.dropWhile_append_of_pos backwards]

/-- A text is what is left of it, between two runs of blanks. -/
theorem exists_trim (text : Text) :
    ∃ before behind, text = before ++ (trim text ++ behind) ∧ (∀ c ∈ before, isBlank c) ∧ ∀ c ∈ behind, isBlank c := by
  refine ⟨text.takeWhile isBlank, ((text.dropWhile isBlank).reverse.takeWhile isBlank).reverse, ?_,
    fun c member => List.mem_takeWhile_imp member, fun c member => List.mem_takeWhile_imp (List.mem_reverse.mp member)⟩
  rw [trim, ← List.reverse_append, List.takeWhile_append_dropWhile, List.reverse_reverse, List.takeWhile_append_dropWhile]

theorem trim_trim (text : Text) : trim (trim text) = trim text := by
  obtain ⟨before, behind, shape, front, back⟩ := exists_trim text
  have same : trim text = trim (before ++ (trim text ++ behind)) := congrArg trim shape
  rw [trim_behind_blanks front, trim_before_blanks back] at same
  exact same.symm

/-! ### Pieces between separators -/

variable {separator : Char}

theorem split_append_left {opening : Text} (absent : separator ∉ opening) (text : Text) :
    ∃ first others, split separator text = first :: others ∧ split separator (opening ++ text) = (opening ++ first) :: others := by
  induction opening with
  | nil =>
    cases cut : split separator text with
    | nil => exact absurd cut (split_ne_nil separator text)
    | cons first others => exact ⟨first, others, rfl, cut⟩
  | cons c opening ih =>
    rw [List.mem_cons, not_or] at absent
    obtain ⟨first, others, cut, whole⟩ := ih absent.2
    refine ⟨first, others, cut, ?_⟩
    rw [List.cons_append, split, if_neg (Ne.symm absent.1), whole]
    rfl

theorem split_append_right (text : Text) {closing : Text} (absent : separator ∉ closing) :
    ∃ others last, split separator text = others ++ [last] ∧ split separator (text ++ closing) = others ++ [last ++ closing] := by
  induction text with
  | nil => exact ⟨[], [], rfl, split_of_not_mem absent⟩
  | cons c text ih =>
    obtain ⟨others, last, cut, whole⟩ := ih
    by_cases same : c = separator
    · exact ⟨[] :: others, last, by rw [split, if_pos same, cut, List.cons_append],
        by rw [List.cons_append, split, if_pos same, whole, List.cons_append]⟩
    · cases others with
      | nil =>
        refine ⟨[], c :: last, ?_, ?_⟩
        · rw [split, if_neg same, cut]
          rfl
        · rw [List.cons_append, split, if_neg same, whole]
          rfl
      | cons first others =>
        refine ⟨(c :: first) :: others, last, ?_, ?_⟩
        · rw [split, if_neg same, cut]
          rfl
        · rw [List.cons_append, split, if_neg same, whole]
          rfl

/-- Pieces without separators come out again as they were put together. -/
theorem split_join {pieces : List Text} (some : pieces ≠ []) (absent : ∀ piece ∈ pieces, separator ∉ piece) :
    split separator (join [separator] pieces) = pieces := by
  induction pieces with
  | nil => exact absurd rfl some
  | cons piece others ih =>
    obtain ⟨here, there⟩ := List.forall_mem_cons.mp absent
    cases others with
    | nil =>
      rw [join, List.intercalate_singleton]
      exact split_of_not_mem here
    | cons next others =>
      have rest : split separator (separator :: join [separator] (next :: others)) = [] :: next :: others := by
        rw [split, if_pos rfl, ih (List.cons_ne_nil _ _) there]
      obtain ⟨first, further, cut, whole⟩ := split_append_left here (separator :: join [separator] (next :: others))
      obtain ⟨rfl, rfl⟩ := List.cons.inj (rest.symm.trans cut)
      have shape : join [separator] (piece :: next :: others) = piece ++ separator :: join [separator] (next :: others) := by
        rw [join, List.intercalate_cons_cons, List.append_assoc]
        rfl
      rw [shape, whole, List.append_nil]

end Text

namespace Identifier

variable {flavor : Flavor} {reference : Text}

/-! ### Segments -/

/-- What stands between the dots of a reference, without the blanks around it. -/
def pieces (reference : Text) : List Text :=
  (Text.split '.' reference).map Text.trim

theorem dot_not_blank : Text.isBlank '.' = false := by decide

/-- The blanks around the whole reference are blanks around its first and its last segment. -/
theorem pieces_trim (reference : Text) : pieces (Text.trim reference) = pieces reference := by
  obtain ⟨before, behind, shape, front, back⟩ := Text.exists_trim reference
  have dotless {blanks : Text} (blank : ∀ c ∈ blanks, Text.isBlank c) : '.' ∉ blanks := by
    intro dot
    exact absurd (blank '.' dot) (by rw [dot_not_blank]; exact Bool.false_ne_true)
  obtain ⟨first, others, cut, whole⟩ := Text.split_append_left (dotless front) (Text.trim reference ++ behind)
  obtain ⟨init, last, cut', whole'⟩ := Text.split_append_right (Text.trim reference) (dotless back)
  rw [← shape] at whole
  calc pieces (Text.trim reference) = pieces (Text.trim reference ++ behind) := by
        rw [pieces, pieces, cut', whole', List.map_append, List.map_append, List.map_singleton, List.map_singleton,
          Text.trim_before_blanks back]
    _ = pieces reference := by
        rw [pieces, pieces, cut, whole, List.map_cons, List.map_cons, Text.trim_behind_blanks front]

theorem segments_eq (reference : Text) :
    segments reference = if [] ∈ pieces reference then .error (.emptySegment reference) else .ok (pieces reference) := by
  have parts : (Text.split '.' (Text.trim reference)).map Text.trim = pieces reference := pieces_trim reference
  have empty : (pieces reference).any List.isEmpty = true ↔ [] ∈ pieces reference := by
    simp [List.any_eq_true, List.isEmpty_iff]
  rw [segments, parts]
  simp only [empty]

theorem pieces_ne_nil (reference : Text) : pieces reference ≠ [] := by
  simpa [pieces] using Text.split_ne_nil '.' reference

theorem dot_not_mem_of_mem_pieces {piece : Text} (member : piece ∈ pieces reference) : '.' ∉ piece := by
  obtain ⟨part, inside, rfl⟩ := List.mem_map.mp member
  exact fun dot => Text.not_mem_of_mem_split inside ((Text.trim_infix part).subset dot)

theorem trim_of_mem_pieces {piece : Text} (member : piece ∈ pieces reference) : Text.trim piece = piece := by
  obtain ⟨part, -, rfl⟩ := List.mem_map.mp member
  exact Text.trim_trim part

/-! ### Quoted segments -/

theorem quote_quote (flavor : Flavor) (name : Text) : quote flavor (quote flavor name) = quote flavor name := by
  have kept (name : Text) : quote flavor name = if isKept flavor name then name else enclose flavor name := rfl
  by_cases keeps : isKept flavor name = true
  · rw [kept name, if_pos keeps, kept name, if_pos keeps]
  · rw [kept name, if_neg keeps, kept, if_pos (isKept_enclose flavor name)]

theorem dot_not_mem_quote {name : Text} (dotless : '.' ∉ name) : '.' ∉ quote flavor name := by
  have apart : '.' ≠ flavor.quotes.1 ∧ '.' ≠ flavor.quotes.2 := by cases flavor <;> decide
  unfold quote
  split
  · exact dotless
  · simp only [enclose, List.cons_append, List.mem_cons, List.mem_append, List.not_mem_nil, or_false, not_or]
    refine ⟨apart.1, fun inside => dotless ?_, apart.2⟩
    obtain ⟨c, member, doubled⟩ := List.mem_flatMap.mp inside
    split at doubled
    · next closes =>
      have closing : '.' = flavor.quotes.2 := by simpa using doubled
      exact absurd closing apart.2
    · exact List.mem_singleton.mp doubled ▸ member

theorem trim_quote {name : Text} (trimmed : Text.trim name = name) : Text.trim (quote flavor name) = quote flavor name := by
  have unblank : Text.isBlank flavor.quotes.1 = false ∧ Text.isBlank flavor.quotes.2 = false := by cases flavor <;> decide
  unfold quote
  split
  · exact trimmed
  · refine Text.trim_of_ends ?_ ?_
    · rintro c ⟨⟩
      exact unblank.1
    · intro c last
      rw [enclose, List.getLast?_concat] at last
      obtain rfl := Option.some.inj last
      exact unblank.2

/-- What a table reference is quoted to: its segments in quotes, between dots. -/
theorem quoteTable_eq (flavor : Flavor) (reference : Text) : quoteTable flavor reference =
    if [] ∈ pieces reference then .error (.emptySegment reference)
    else .ok (Text.join "." ((pieces reference).map (quote flavor))) := by
  rw [quoteTable, segments_eq]
  split <;> rfl

/-- The segments of a quoted reference are the quoted segments of the reference. -/
theorem split_quoted (flavor : Flavor) (reference : Text) :
    Text.split '.' (Text.join "." ((pieces reference).map (quote flavor))) = (pieces reference).map (quote flavor) := by
  refine Text.split_join (by simpa using pieces_ne_nil reference) ?_
  intro written member
  obtain ⟨piece, inside, rfl⟩ := List.mem_map.mp member
  exact dot_not_mem_quote (dot_not_mem_of_mem_pieces inside)

theorem pieces_quoted (flavor : Flavor) (reference : Text) :
    pieces (Text.join "." ((pieces reference).map (quote flavor))) = (pieces reference).map (quote flavor) := by
  rw [pieces, split_quoted, List.map_map]
  refine List.map_congr_left fun piece member => ?_
  exact trim_quote (trim_of_mem_pieces member)

/-! ### The whole reference -/

/-- A segment that is written as it is: the wildcard, a schema token, or a name between the quotes of the flavor. -/
def Stays (flavor : Flavor) (piece : Text) : Prop :=
  piece = "*" ∨ IsSchemaName piece ∨ isQuoted flavor piece = true

/-- How a segment is written. -/
def Writes (flavor : Flavor) (piece written : Text) : Prop :=
  (Stays flavor piece ∧ written = piece) ∨ (¬ Stays flavor piece ∧ written = enclose flavor piece)

/-- Characters that quote a name in some flavor, or a literal. -/
def isDelimiter (c : Char) : Bool :=
  Quoted.isQuote c || c = '[' || c = ']'

/-- A reference without such characters. -/
def Unquoted (reference : Text) : Prop :=
  ∀ piece ∈ pieces reference, ∀ c ∈ piece, isDelimiter c = false

/-- A segment ends with no line break, so a schema token in it has none behind it. -/
private theorem stays_iff {piece : Text} (trimmed : Text.trim piece = piece) : Stays flavor piece ↔ isKept flavor piece = true := by
  have unbroken (word : Text) : piece ≠ word ++ ['\n'] := by
    rintro rfl
    have blank : ∀ c ∈ ['\n'], Text.isBlank c := by simp only [List.mem_singleton, forall_eq]; decide
    have shorter := (Text.trim_infix word).length_le
    rw [← Text.trim_before_blanks blank, trimmed, List.length_append, List.length_singleton] at shorter
    omega
  have token : isSchemaToken piece = true ↔ IsSchemaName piece := by
    rw [isSchemaToken_iff]
    exact or_iff_left fun ⟨word, _, same⟩ => unbroken word same
  rw [isKept, Bool.or_eq_true, Bool.or_eq_true, token, decide_eq_true_iff, Stays, or_assoc]

private theorem writes_quote {piece : Text} (trimmed : Text.trim piece = piece) : Writes flavor piece (quote flavor piece) := by
  have kept : quote flavor piece = if isKept flavor piece then piece else enclose flavor piece := rfl
  rw [Writes, stays_iff trimmed, kept]
  cases isKept flavor piece <;> simp

private theorem isDelimiter_opening (flavor : Flavor) : isDelimiter flavor.quotes.1 = true := by
  cases flavor <;> decide

/-- Names without quotes are told apart by how they are written. -/
private theorem eq_of_quote_eq {left right : Text} (cleanLeft : ∀ c ∈ left, isDelimiter c = false)
    (cleanRight : ∀ c ∈ right, isDelimiter c = false) (same : quote flavor left = quote flavor right) : left = right := by
  have opens (name : Text) : flavor.quotes.1 ∈ enclose flavor name := List.mem_cons_self
  rcases (quote_eq_quote_iff flavor left right).mp same with same | ⟨-, rfl⟩ | ⟨-, rfl⟩
  · exact same
  · exact absurd (cleanLeft _ (opens right)) (by rw [isDelimiter_opening]; exact Bool.noConfusion)
  · exact absurd (cleanRight _ (opens left)) (by rw [isDelimiter_opening]; exact Bool.noConfusion)

private theorem pieces_eq_of_map {left right : List Text} (cleanLeft : ∀ piece ∈ left, ∀ c ∈ piece, isDelimiter c = false)
    (cleanRight : ∀ piece ∈ right, ∀ c ∈ piece, isDelimiter c = false)
    (same : left.map (quote flavor) = right.map (quote flavor)) : left = right := by
  induction left generalizing right with
  | nil => exact (List.map_eq_nil_iff.mp same.symm).symm
  | cons piece left ih =>
    cases right with
    | nil => cases same
    | cons piece' right =>
      obtain ⟨here, there⟩ := List.cons.inj same
      obtain ⟨clean, cleanRest⟩ := List.forall_mem_cons.mp cleanLeft
      obtain ⟨clean', cleanRest'⟩ := List.forall_mem_cons.mp cleanRight
      rw [eq_of_quote_eq clean clean' here, ih cleanRest cleanRest' there]

/-- A table reference is refused exactly if one of its segments is empty. Otherwise it is written segment by segment, quoting it once more changes nothing, and no other reference without quotes is written so unless its segments are the same. -/
theorem quoteTable_stable (flavor : Flavor) (reference : Text) :
    (quoteTable flavor reference = .error (.emptySegment reference) ↔ [] ∈ pieces reference) ∧
    ([] ∉ pieces reference → ∃ quoted, quoteTable flavor reference = .ok quoted ∧
      (Text.split '.' quoted).length = (Text.split '.' reference).length ∧
      List.Forall₂ (Writes flavor) (pieces reference) (Text.split '.' quoted) ∧
      quoteTable flavor quoted = .ok quoted ∧
      ∀ other, Unquoted reference → Unquoted other → quoteTable flavor other = .ok quoted → pieces other = pieces reference) := by
  refine ⟨?_, fun whole => ⟨Text.join "." ((pieces reference).map (quote flavor)), ?_, ?_, ?_, ?_, ?_⟩⟩
  · rw [quoteTable_eq]
    split <;> simp_all
  · rw [quoteTable_eq, if_neg whole]
  · rw [split_quoted, List.length_map, pieces, List.length_map]
  · rw [split_quoted]
    refine List.forall₂_map_right_iff.mpr (List.forall₂_same.mpr fun piece member => ?_)
    exact writes_quote (trim_of_mem_pieces member)
  · have settled : ((pieces reference).map (quote flavor)).map (quote flavor) = (pieces reference).map (quote flavor) := by
      rw [List.map_map]
      exact List.map_congr_left fun piece _ => quote_quote flavor piece
    have filled : [] ∉ (pieces reference).map (quote flavor) := by
      intro empty
      obtain ⟨piece, member, same⟩ := List.mem_map.mp empty
      have kept : quote flavor piece = if isKept flavor piece then piece else enclose flavor piece := rfl
      rw [kept] at same
      split at same
      · exact whole (same ▸ member)
      · cases same
    rw [quoteTable_eq, pieces_quoted, if_neg filled, settled]
  · intro other clean clean' same
    rw [quoteTable_eq] at same
    split at same
    · cases same
    · have texts := congrArg (Text.split '.') (Except.ok.inj same)
      rw [split_quoted, split_quoted] at texts
      exact pieces_eq_of_map clean' clean texts

/-- A table in a schema, written with blanks around the dot or without them. -/
theorem quoteTable_stable_blanks : [] ∉ pieces "$schema1 . users" ∧
    quoteTable .postgres "$schema1 . users" = .ok "$schema1.\"users\"" ∧
    quoteTable .postgres "$schema1.\"users\"" = .ok "$schema1.\"users\"" ∧
    Unquoted "$schema1 . users" ∧ Unquoted " $schema1.users" ∧
    quoteTable .postgres " $schema1.users" = .ok "$schema1.\"users\"" ∧
    pieces " $schema1.users" = pieces "$schema1 . users" := by
  have whole : [] ∉ pieces "$schema1 . users" := by decide
  have written : quoteTable .postgres "$schema1 . users" = .ok "$schema1.\"users\"" := by decide
  have plain (reference : Text) (cut : pieces reference = [("$schema1" : Text), ("users" : Text)]) : Unquoted reference := by
    intro piece member
    rw [cut, List.mem_pair] at member
    rcases member with rfl | rfl <;> simp [isDelimiter, Quoted.isQuote]
  have clean : Unquoted "$schema1 . users" ∧ Unquoted " $schema1.users" := ⟨plain _ (by decide), plain _ (by decide)⟩
  have written' : quoteTable .postgres " $schema1.users" = .ok "$schema1.\"users\"" := by decide
  obtain ⟨quoted, done, -, -, again, alike⟩ := (quoteTable_stable .postgres "$schema1 . users").2 whole
  obtain rfl := Except.ok.inj (written.symm.trans done)
  exact ⟨whole, written, again, clean.1, clean.2, written', alike _ clean.1 clean.2 written'⟩

end Identifier

end SqlCompose
