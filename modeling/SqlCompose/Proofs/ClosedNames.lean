import Mathlib
import SqlCompose.Identifier
import SqlCompose.Proofs.QuoteStructure
import SqlCompose.Proofs.TokenReading

/-!
# Names that close

A reader of SQL takes a quoted identifier up to the first closing quote that is not doubled. `Identifier.readQuoted` is this reader, and `readQuoted_eq_some` says that it accepts exactly what `enclose` writes, with anything behind it but one more closing quote.

A name that is enclosed is therefore read back whole. A name that begins and ends with the quotes is kept as it is, whatever stands between them, and so is a schema token with a line break behind it. `closes_iff` says that these are the only names that may come out otherwise than as one closed identifier.
-/

namespace SqlCompose

namespace Identifier

/-! ### Reading a quoted identifier -/

/-- Reads on inside quotes: a doubled closing quote stands for one, and the first that is not doubled ends the name. -/
def readName (closing : Char) : Text → Option (Text × Text)
  | [] => none
  | c :: rest =>
    if c = closing then
      match rest with
      | [] => some ([], [])
      | d :: tail =>
        if d = closing then (readName closing tail).map fun (name, behind) => (closing :: name, behind)
        else some ([], d :: tail)
    else (readName closing rest).map fun (name, behind) => (c :: name, behind)

/-- The name that a quoted identifier at the beginning of a text stands for, and what is behind it. -/
def readQuoted (flavor : Flavor) : Text → Option (Text × Text)
  | [] => none
  | c :: rest => if c = flavor.quotes.1 then readName flavor.quotes.2 rest else none

variable {flavor : Flavor} {closing : Char} {name text behind : Text}

private theorem readName_double (name : Text) (behind : Text) (apart : behind.head? ≠ some closing) :
    readName closing (Text.double closing name ++ closing :: behind) = some (name, behind) := by
  induction name with
  | nil =>
    cases behind with
    | nil => simp [Text.double, readName]
    | cons d tail =>
      have other : d ≠ closing := fun same => apart (congrArg some same)
      simp [Text.double, readName, other]
  | cons c name ih =>
    by_cases same : c = closing
    · subst same
      simp [Quoted.double_cons_self, readName, ih]
    · rw [Quoted.double_cons_of_ne same, List.cons_append, readName.eq_def]
      simp only [if_neg same, ih, Option.map_some]

private theorem eq_of_readName (read : readName closing text = some (name, behind)) :
    text = Text.double closing name ++ closing :: behind ∧ behind.head? ≠ some closing := by
  fun_induction readName closing text generalizing name with
  | case1 => cases read
  | case2 =>
    obtain ⟨rfl, rfl⟩ := Prod.mk.inj (Option.some.inj read)
    exact ⟨rfl, nofun⟩
  | case3 tail ih =>
    obtain ⟨⟨inner, rest⟩, found, same⟩ := Option.map_eq_some_iff.mp read
    obtain ⟨rfl, rfl⟩ := Prod.mk.inj same
    obtain ⟨rfl, apart⟩ := ih found
    exact ⟨by rw [Quoted.double_cons_self]; rfl, apart⟩
  | case4 d tail other =>
    obtain ⟨rfl, rfl⟩ := Prod.mk.inj (Option.some.inj read)
    exact ⟨rfl, fun same => other (Option.some.inj same)⟩
  | case5 c rest other ih =>
    obtain ⟨⟨inner, rest'⟩, found, same⟩ := Option.map_eq_some_iff.mp read
    obtain ⟨rfl, rfl⟩ := Prod.mk.inj same
    obtain ⟨rfl, apart⟩ := ih found
    exact ⟨by rw [Quoted.double_cons_of_ne other]; rfl, apart⟩

/-- What is read as a quoted identifier is a name in quotes, and no closing quote follows. -/
theorem readQuoted_eq_some : readQuoted flavor text = some (name, behind) ↔
    text = enclose flavor name ++ behind ∧ behind.head? ≠ some flavor.quotes.2 := by
  constructor
  · intro read
    cases text with
    | nil => cases read
    | cons c rest =>
      rw [readQuoted] at read
      split at read
      · next opens =>
        obtain ⟨rfl, apart⟩ := eq_of_readName read
        exact ⟨by simp [enclose, opens], apart⟩
      · cases read
  · rintro ⟨rfl, apart⟩
    rw [enclose, List.cons_append, List.cons_append, List.append_assoc, readQuoted, if_pos rfl]
    exact readName_double name behind apart

/-! ### Names that are kept as they are -/

theorem isQuoted_iff : isQuoted flavor name = true ↔ ∃ body, name = flavor.quotes.1 :: (body ++ [flavor.quotes.2]) := by
  cases name with
  | nil => simp [isQuoted]
  | cons c rest =>
    rcases List.eq_nil_or_concat rest with rfl | ⟨body, d, rfl⟩
    · simp [isQuoted]
    · have last : (c :: (body ++ [d])).getLast? = some d := by rw [← List.cons_append, List.getLast?_concat]
      simp [isQuoted, last]

/-- The word `$schema` with digits behind it. -/
def IsSchemaName (name : Text) : Prop :=
  ∃ digits : Text, (∀ c ∈ digits, Text.isDigit c) ∧ name = "$schema" ++ digits

theorem isSchemaToken_iff : isSchemaToken name = true ↔ IsSchemaName name ∨ ∃ word, IsSchemaName word ∧ name = word ++ ['\n'] := by
  have ends (digits : Text) (all : ∀ c ∈ digits, Text.isDigit c) (tail : Text) (stop : tail.BeginsOutside Text.isDigit) :
      isSchemaToken ("$schema" ++ (digits ++ tail)) = true ↔ tail = [] ∨ tail = ['\n'] := by
    have after : Text.after? "$schema" (("$schema" : Text) ++ (digits ++ tail)) = some (digits ++ tail) :=
      Text.after?_eq_some_iff.mpr rfl
    have dropped : (digits ++ tail).dropWhile Text.isDigit = tail := by
      rw [List.dropWhile_append_of_pos all]
      cases tail with
      | nil => rfl
      | cons c tail => exact List.dropWhile_cons_of_neg (by simp [stop c (by simp)])
    rw [isSchemaToken, after, Option.map_some, dropped]
    split <;> simp_all
  constructor
  · intro token
    cases after : Text.after? "$schema" name with
    | none =>
      rw [isSchemaToken, after] at token
      cases token
    | some rest =>
      obtain rfl := Text.after?_eq_some_iff.mp after
      have digits : ∀ c ∈ rest.takeWhile Text.isDigit, Text.isDigit c := fun c member => List.mem_takeWhile_imp member
      rw [← List.takeWhile_append_dropWhile (p := Text.isDigit) (l := rest)] at token ⊢
      rcases (ends _ digits _ (.dropWhile rest)).mp token with bare | broken
      · exact .inl ⟨_, digits, by rw [bare, List.append_nil]⟩
      · exact .inr ⟨_, ⟨_, digits, rfl⟩, by rw [broken, List.append_assoc]⟩
  · rintro (⟨digits, all, rfl⟩ | ⟨_, ⟨digits, all, rfl⟩, rfl⟩)
    · rw [← List.append_nil digits]
      exact (ends digits all [] .nil).mpr (.inl rfl)
    · rw [List.append_assoc]
      exact (ends digits all ['\n'] (.cons (by decide))).mpr (.inr rfl)

/-! ### One closed identifier -/

/-- A name is written as one quoted identifier: whatever follows but a closing quote, reading stops at its end, and gives the name back unless the name was an identifier in quotes already. -/
def Closes (flavor : Flavor) (name text : Text) : Prop :=
  ∃ inner, text = enclose flavor inner ∧ ((∀ given, name ≠ enclose flavor given) → inner = name) ∧
    ∀ behind : Text, behind.head? ≠ some flavor.quotes.2 → readQuoted flavor (text ++ behind) = some (inner, behind)

theorem closes_enclose (flavor : Flavor) (name inner : Text) (own : (∀ given, name ≠ enclose flavor given) → inner = name) :
    Closes flavor name (enclose flavor inner) :=
  ⟨inner, rfl, own, fun _ apart => readQuoted_eq_some.mpr ⟨rfl, apart⟩⟩

private theorem not_enclosed_of_isSchemaName {word behind inner : Text} (schema : IsSchemaName word) :
    word ++ behind ≠ enclose flavor inner := by
  obtain ⟨digits, -, rfl⟩ := schema
  intro same
  have opens : '$' = flavor.quotes.1 := (List.cons.inj same).1
  cases flavor <;> exact absurd opens (by decide)

/-- Every name but the wildcard and the schema names is written as one closed identifier, if only all closing quotes are doubled that stand inside the quotes it has already, and it is no schema name with a line break. The others are kept as they are. -/
theorem closes_iff (flavor : Flavor) (name : Text) (notAll : name ≠ "*") (noSchema : ¬ IsSchemaName name) :
    (Closes flavor name (quote flavor name) ↔
      (∀ body, name = flavor.quotes.1 :: (body ++ [flavor.quotes.2]) → ∃ inner, body = Text.double flavor.quotes.2 inner) ∧
        ∀ word, IsSchemaName word → name ≠ word ++ ['\n']) ∧
    (¬ Closes flavor name (quote flavor name) → quote flavor name = name) := by
  by_cases broken : ∃ word, IsSchemaName word ∧ name = word ++ ['\n']
  · obtain ⟨word, schema, rfl⟩ := broken
    have kept : quote flavor (word ++ ['\n']) = word ++ ['\n'] := by
      rw [quote, isSchemaToken_iff.mpr (.inr ⟨word, schema, rfl⟩), Bool.or_true, Bool.true_or, if_pos rfl]
    rw [kept]
    refine ⟨⟨?_, fun ⟨_, other⟩ => absurd rfl (other word schema)⟩, fun _ => rfl⟩
    rintro ⟨inner, same, -⟩
    exact absurd same (not_enclosed_of_isSchemaName schema)
  · have free : isSchemaToken name = false := by
      rw [← Bool.not_eq_true, isSchemaToken_iff]
      exact not_or.mpr ⟨noSchema, broken⟩
    have single : decide (name = ("*" : Text)) = false := decide_eq_false notAll
    have unbroken : ∀ word, IsSchemaName word → name ≠ word ++ ['\n'] := fun word schema same => broken ⟨word, schema, same⟩
    by_cases quoted : isQuoted flavor name = true
    · have kept : quote flavor name = name := by rw [quote, quoted, Bool.or_true, if_pos rfl]
      rw [kept]
      refine ⟨⟨?_, ?_⟩, fun _ => rfl⟩
      · rintro ⟨inner, same, -⟩
        refine ⟨fun body shape => ⟨inner, ?_⟩, unbroken⟩
        exact List.append_cancel_right (List.cons.inj (shape.symm.trans same)).2
      · rintro ⟨doubled, -⟩
        obtain ⟨body, shape⟩ := isQuoted_iff.mp quoted
        obtain ⟨inner, rfl⟩ := doubled body shape
        have enclosed : name = enclose flavor inner := shape
        have closed := closes_enclose flavor name inner fun other => absurd enclosed (other inner)
        rwa [← enclosed] at closed
    · have written : quote flavor name = enclose flavor name := by
        rw [quote, single, free, Bool.eq_false_iff.mpr quoted]
        rfl
      have closed : Closes flavor name (quote flavor name) := written ▸ closes_enclose flavor name name fun _ => rfl
      refine ⟨iff_of_true closed ⟨fun body shape => ?_, unbroken⟩, fun open' => absurd closed open'⟩
      exact absurd (isQuoted_iff.mpr ⟨body, shape⟩) quoted

/-- A name with quotes in it and at one end. -/
theorem closes_inner_quotes : ("a\" OR \"b\"" : Text) ≠ "*" ∧ ¬ IsSchemaName "a\" OR \"b\"" ∧
    Closes .postgres "a\" OR \"b\"" (quote .postgres "a\" OR \"b\"") := by
  have noSchema : ¬ IsSchemaName "a\" OR \"b\"" := by
    rintro ⟨digits, -, same⟩
    cases (List.cons.inj same).1
  refine ⟨by decide, noSchema, (closes_iff .postgres _ (by decide) noSchema).1.mpr ⟨fun body shape => ?_, ?_⟩⟩
  · exact absurd (List.cons.inj shape).1 (by decide)
  · rintro word ⟨digits, -, rfl⟩ same
    cases (List.cons.inj same).1

/-- A name that begins and ends with quotes is taken for a quoted one, and what stands behind the quote in its middle is read as SQL. -/
theorem not_closed_between_quotes :
    quote .postgres "\"a\" OR \"b\"" = "\"a\" OR \"b\"" ∧
    readQuoted .postgres (quote .postgres "\"a\" OR \"b\"") = some (("a" : Text), (" OR \"b\"" : Text)) ∧
    ¬ Closes .postgres "\"a\" OR \"b\"" (quote .postgres "\"a\" OR \"b\"") := by
  have kept : quote .postgres "\"a\" OR \"b\"" = "\"a\" OR \"b\"" := rfl
  have read : readQuoted .postgres (quote .postgres "\"a\" OR \"b\"") = some (("a" : Text), (" OR \"b\"" : Text)) :=
    readQuoted_eq_some.mpr ⟨by decide, by decide⟩
  refine ⟨kept, read, ?_⟩
  rintro ⟨inner, -, -, whole⟩
  have ends := whole [] nofun
  rw [List.append_nil, read] at ends
  cases ends

end Identifier

end SqlCompose
