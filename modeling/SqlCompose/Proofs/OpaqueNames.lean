import Mathlib
import SqlCompose.Identifier
import SqlCompose.Proofs.Quotations

/-!
# Which quoted names are opaque

A name in quotes that the scanner knows is one quoted region wherever it stands: nothing in it is counted, numbered or replaced, whatever characters it has. Every flavor but one quotes its names so. Square brackets are no quotes to the scanner, so a name between them is read like any other text (`Identifier.quote_opaque`): a question mark in it is a marker, and a dollar sign with digits is a placeholder.
-/

namespace SqlCompose

open Token

/-- Nothing in the text means anything to the library, wherever the text stands in another one. -/
structure Opaque (text : Text) : Prop where
  markers : countMarkers text = 0
  placeholders : placeholders text = []
  schemas : ∀ schemas, Identifier.substituteSchemas schemas text = .ok text
  region : ∀ {whole}, Quoted.Encloses whole text → text ∈ Quoted.regions whole
  bound : ∀ {whole}, Quoted.Encloses whole text → ∀ {start written next},
    bindMarkers whole start = .ok (written, next) → text ∈ Quoted.regions written
  renumbered : ∀ {fragment : Fragment}, Quoted.Encloses fragment.text.content text → ∀ {start numbered},
    fragment.renumber start = .ok numbered → text ∈ Quoted.regions numbered.text.content
  compacted : ∀ {fragment : Fragment}, Quoted.Encloses fragment.text.content text → ∀ {sameness compacted},
    fragment.compact sameness = .ok compacted → text ∈ Quoted.regions compacted.text.content

/-- The name in square brackets means what the name alone means. -/
structure Transparent (name : Text) : Prop where
  markers : countMarkers (Identifier.quote .mssql name) = countMarkers name
  placeholders : placeholders (Identifier.quote .mssql name) = placeholders name
  schemas : ∀ schemas, Identifier.substituteSchemas schemas (Identifier.quote .mssql name) =
    (Identifier.substituteSchemas schemas name).map fun inner => '[' :: (inner ++ [']'])

namespace Quoted

/-! ### One quoted region -/

variable {quote : Char} (isQuote : isQuote quote = true) (inner : Text)
include isQuote

private theorem segments_alone :
    segments (quote :: (Text.double quote inner ++ [quote])) = [⟨quote :: (Text.double quote inner ++ [quote]), true⟩] := by
  have closed : Closed quote [] := by rintro ⟨⟩
  have cut := segments_quoted inner isQuote closed
  rwa [List.append_nil] at cut

private theorem balanced_alone : Slotted.Balanced (quote :: (Text.double quote inner ++ [quote])) := by
  intro segment member unquoted
  rw [segments_alone isQuote inner] at member
  rw [List.mem_singleton.mp member] at unquoted
  cases unquoted

private theorem read_alone :
    read (quote :: (Text.double quote inner ++ [quote])) = [.quoted (quote :: (Text.double quote inner ++ [quote]))] := by
  rw [read_eq, segments_alone isQuote inner]
  rfl

private theorem mem_regions {whole : Text} (encloses : Encloses whole (quote :: (Text.double quote inner ++ [quote]))) :
    quote :: (Text.double quote inner ++ [quote]) ∈ regions whole := by
  refine (encloses.regions_sublist (balanced_alone isQuote inner)).subset ?_
  rw [regions, segments_alone isQuote inner]
  exact List.mem_singleton_self _

private theorem mem_regions_of_renumber {fragment : Fragment} {start : Int} {numbered : Numbered Wording}
    (encloses : Encloses fragment.text.content (quote :: (Text.double quote inner ++ [quote])))
    (done : fragment.renumber start = .ok numbered) :
    quote :: (Text.double quote inner ++ [quote]) ∈ regions numbered.text.content := by
  obtain ⟨-, -, rfl⟩ := Fragment.renumber_eq_ok.mp done
  rw [regions_shiftedText]
  exact mem_regions isQuote inner encloses

theorem opaque_alone : Opaque (quote :: (Text.double quote inner ++ [quote])) where
  markers := by
    rw [countMarkers, read_alone isQuote inner]
    rfl
  placeholders := by
    rw [placeholders, read_alone isQuote inner]
    rfl
  schemas schemas := by
    rw [Identifier.substituteSchemas, segments_alone isQuote inner, List.mapM_cons, List.mapM_nil]
    exact congrArg Except.ok (List.append_nil _)
  region := mem_regions isQuote inner
  bound encloses _ _ _ done := by
    obtain ⟨-, same⟩ := bindMarkers_eq_ok.mp done
    obtain rfl := congrArg Prod.fst same
    rw [(restyled_boundMarkers _ _).regions_eq]
    exact mem_regions isQuote inner encloses
  renumbered encloses _ _ done := mem_regions_of_renumber isQuote inner encloses done
  compacted encloses _ _ done := by
    rw [regions_compact done]
    exact mem_regions isQuote inner encloses

end Quoted

namespace Identifier

/-! ### Names in the quotes of a flavor -/

private theorem substituteSchemas_of_no_quotes {text : Text} (none : ∀ c ∈ text, Quoted.isQuote c = false) (schemas : List Value) :
    substituteSchemas schemas text = substituteUnquoted schemas text := by
  by_cases empty : text = []
  · rw [empty]
    rfl
  · rw [substituteSchemas, Quoted.segments_of_no_quotes empty none, List.mapM_cons, List.mapM_nil]
    cases done : substituteUnquoted schemas text with
    | error error => simp
    | ok out => simp

private theorem substituteUnquoted_between {text : Text} (opening closing : Char) (schemas : List Value)
    (tokens : ofUnquoted (opening :: (text ++ [closing])) = .plain opening :: (ofUnquoted text ++ [.plain closing])) :
    substituteUnquoted schemas (opening :: (text ++ [closing])) =
      (substituteUnquoted schemas text).map fun inner => opening :: (inner ++ [closing]) := by
  have plainly (c : Char) : withSchemas schemas (.plain c) = .ok (.text [c]) := rfl
  have written (c : Char) : schemaText (.text [c]) = .ok [c] := rfl
  rw [substituteUnquoted, substituteUnquoted, tokens, List.mapM_cons, List.mapM_append, List.mapM_cons, List.mapM_nil]
  cases named : (ofUnquoted text).mapM (withSchemas schemas) with
  | error error => simp [plainly, Except.map]
  | ok pieces =>
    simp only [plainly, Outcome.bind_ok, Outcome.pure_eq, List.mapM_cons, List.mapM_append, List.mapM_nil, written]
    cases pieces.mapM schemaText with
    | error error => simp [Except.map]
    | ok texts => simp [Except.map]

/-- A name with no quotes and no brackets in it. -/
def Bare (name : Text) : Prop :=
  ∀ c ∈ name, Quoted.isQuote c = false ∧ c ≠ '[' ∧ c ≠ ']'

instance (name : Text) : Decidable (Bare name) :=
  decidable_of_iff (name.all (fun c => !Quoted.isQuote c && c != '[' && c != ']') = true)
    (by simp [Bare, List.all_eq_true, and_assoc])

variable {name : Text} (bare : Bare name) (notAll : name ≠ "*") (noSchema : isSchemaToken name = false)
include bare notAll noSchema

private theorem quote_eq (flavor : Flavor) : quote flavor name = enclose flavor name := by
  have unquoted : isQuoted flavor name = false := by
    cases name with
    | nil => rfl
    | cons c rest =>
      have first : c ≠ flavor.quotes.1 := by
        rintro rfl
        obtain ⟨noQuote, noBracket, -⟩ := bare _ (List.mem_cons_self ..)
        cases flavor with
        | mssql => exact noBracket rfl
        | _ => exact absurd noQuote (by decide)
      simp [isQuoted, first]
  have other : decide (name = ("*" : Text)) = false := decide_eq_false notAll
  rw [quote, other, noSchema, unquoted]
  rfl

private theorem quote_mssql : quote .mssql name = '[' :: (name ++ [']']) := by
  have single : Text.double ']' name = name := Slotted.Harmless.double_of_not_mem fun member => (bare _ member).2.2 rfl
  rw [quote_eq bare notAll noSchema]
  change '[' :: (Text.double ']' name ++ [']']) = _
  rw [single]

private theorem transparent : Transparent name := by
  have inside : ∀ c ∈ name, Quoted.isQuote c = false := fun c member => (bare c member).1
  have none : ∀ c ∈ '[' :: (name ++ [']']), Quoted.isQuote c = false :=
    List.forall_mem_cons.mpr ⟨by decide, List.forall_mem_append.mpr ⟨inside, List.forall_mem_singleton.mpr (by decide)⟩⟩
  have apart : SetOff [']'] := ⟨.cons (by decide), .cons (by decide), .cons (by decide)⟩
  have tokens : ofUnquoted ('[' :: (name ++ [']'])) = .plain '[' :: (ofUnquoted name ++ [.plain ']']) := by
    rw [ofUnquoted_plain (by decide), ofUnquoted_append apart]
    rfl
  have read : read ('[' :: (name ++ [']'])) = .plain '[' :: (Token.read name ++ [.plain ']']) := by
    rw [read_of_no_quotes none, tokens, read_of_no_quotes inside]
  refine ⟨?_, ?_, fun schemas => ?_⟩
  · rw [quote_mssql bare notAll noSchema, countMarkers, read, List.countP_cons_of_neg (by decide), List.countP_append,
      countMarkers]
    rfl
  · rw [quote_mssql bare notAll noSchema, placeholders, read, List.filterMap_cons, List.filterMap_append, placeholders]
    exact List.append_nil _
  · rw [quote_mssql bare notAll noSchema, substituteSchemas_of_no_quotes none, substituteUnquoted_between _ _ _ tokens,
      substituteSchemas_of_no_quotes inside]

/-- Quoted names are opaque in every flavor that has quotes of its own. Between square brackets a name is read as it is read without them. -/
theorem quote_opaque : (∀ flavor, flavor ≠ .mssql → Opaque (quote flavor name)) ∧ Transparent name := by
  refine ⟨fun flavor other => ?_, transparent bare notAll noSchema⟩
  rw [quote_eq bare notAll noSchema]
  cases flavor with
  | mssql => exact absurd rfl other
  | mysql | postgres | sqlite | oracle => exact Quoted.opaque_alone (by decide) name

omit bare notAll noSchema

/-- A name with a marker, a placeholder and a schema token in it. -/
theorem quote_opaque_marked : Bare "a? $1 $schema" ∧ ("a? $1 $schema" : Text) ≠ "*" ∧ isSchemaToken "a? $1 $schema" = false ∧
    (∀ flavor, flavor ≠ .mssql → Opaque (quote flavor "a? $1 $schema")) ∧ Transparent "a? $1 $schema" := by
  have bare : Bare "a? $1 $schema" := by decide
  have notAll : ("a? $1 $schema" : Text) ≠ "*" := by decide
  have noSchema : isSchemaToken "a? $1 $schema" = false := by decide
  exact ⟨bare, notAll, noSchema, quote_opaque bare notAll noSchema⟩

/-- Between square brackets a placeholder in a name is a placeholder, and a renumbered statement names another column. -/
theorem not_opaque_in_brackets : Bare "a$1" ∧ ("a$1" : Text) ≠ "*" ∧ isSchemaToken "a$1" = false ∧
    placeholders (quote .mssql "a$1") = [1] ∧ countMarkers (quote .mssql "a?") = 1 ∧
    ((Fragment.mk (.plain "SELECT [a$1] WHERE b = $1") [.int 7]).renumber 2).map (·.text.content) =
      .ok "SELECT [a$2] WHERE b = $2" := by
  exact ⟨by decide, by decide, by decide, by decide, by decide, by decide +kernel⟩

end Identifier

end SqlCompose
