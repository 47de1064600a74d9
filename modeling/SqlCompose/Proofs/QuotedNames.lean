import Mathlib
import SqlCompose.Proofs.CarriedNumbers
import SqlCompose.Statement.Insert

/-!
# Names in quotes

A reference to a table or a column is trimmed, cut at dots and at an alias, and its pieces are put into quotes. All pieces are parts of the reference, so what is asked of a name is asked of the reference. A column list is read once more where an insertion takes over the columns of another statement; there an expression may lose its quotes or be put into others.
-/

namespace SqlCompose

open Token

namespace Value

/-- A text that the value is written as in some place of a statement. -/
def Written (value : Value) (text : Text) : Prop :=
  value.asReference = .ok text ∨ value.asText = .ok text ∨ value.printed = .ok text

def IsName (value : Value) : Prop :=
  ∀ text, value.Written text → Nameable text

def IsExpression (value : Value) : Prop :=
  ∀ text, value.Written text → Expressible text

theorem IsName.isExpression {value : Value} (isName : value.IsName) : value.IsExpression :=
  fun text written => (isName text written).expressible

end Value

/-! ### Pieces of a text -/

namespace Text

theorem trim_infix (text : Text) : trim text <:+: text := by
  have front : text.dropWhile isBlank <:+: text := (List.dropWhile_suffix _).isInfix
  have back : trim text <+: text.dropWhile isBlank := by
    have suffix : (text.dropWhile isBlank).reverse.dropWhile isBlank <:+ (text.dropWhile isBlank).reverse :=
      List.dropWhile_suffix _
    have reversed := List.reverse_prefix.mpr suffix
    rwa [List.reverse_reverse] at reversed
  exact back.isInfix.trans front

private theorem split_pieces (separator : Char) (text : Text) :
    ∃ first others, split separator text = first :: others ∧ first <+: text ∧ ∀ piece ∈ others, piece <:+: text := by
  induction text with
  | nil => exact ⟨[], [], rfl, List.prefix_rfl, by simp⟩
  | cons c rest ih =>
    obtain ⟨first, others, cut, front, inside⟩ := ih
    have within : ∀ piece ∈ others, piece <:+: c :: rest := fun piece member => List.infix_cons (inside piece member)
    by_cases same : c = separator
    · refine ⟨[], first :: others, by rw [split, if_pos same, cut], List.nil_prefix, ?_⟩
      intro piece member
      rcases List.mem_cons.mp member with rfl | further
      · exact List.infix_cons front.isInfix
      · exact within piece further
    · exact ⟨c :: first, others, by rw [split, if_neg same, cut], (List.prefix_cons_inj c).mpr front, within⟩

theorem split_infix {separator : Char} {text piece : Text} (member : piece ∈ split separator text) : piece <:+: text := by
  obtain ⟨first, others, cut, front, inside⟩ := split_pieces separator text
  rw [cut] at member
  rcases List.mem_cons.mp member with rfl | further
  · exact front.isInfix
  · exact inside piece further

end Text

namespace Identifier

theorem infix_of_segments {reference : Text} {parts : List Text} (cut : segments reference = .ok parts) :
    ∀ part ∈ parts, part <:+: reference := by
  intro part member
  simp only [segments] at cut
  split at cut
  · cases cut
  · obtain rfl := Except.ok.inj cut
    obtain ⟨piece, inside, rfl⟩ := List.mem_map.mp member
    exact (Text.trim_infix piece).trans ((Text.split_infix inside).trans (Text.trim_infix reference))

private theorem aliasAfterAs?_suffix {text name : Text} (found : aliasAfterAs? text = some name) : name <:+ text := by
  unfold aliasAfterAs? at found
  split at found
  · next a s c rest =>
    simp only at found
    split at found
    · obtain rfl := Option.some.inj found
      exact (List.dropWhile_suffix _).trans ((List.suffix_cons s _).trans (List.suffix_cons a _))
    · cases found
  · cases found

private theorem splitAliasAfter_infix {before text column name : Text}
    (found : splitAliasAfter before text = some (column, name)) :
    column <:+: before.reverse ++ text ∧ name <:+: before.reverse ++ text := by
  induction text generalizing before with
  | nil => cases found
  | cons c rest ih =>
    rw [splitAliasAfter] at found
    split at found
    · next shortName here =>
      obtain ⟨rfl, rfl⟩ := Prod.mk.inj (Option.some.inj found)
      split at here
      · have inside : shortName <:+ c :: rest := (aliasAfterAs?_suffix here).trans (List.dropWhile_suffix _)
        exact ⟨(List.prefix_append _ _).isInfix, inside.isInfix.trans (List.suffix_append _ _).isInfix⟩
      · cases here
    · split at found
      · cases found
      · have parts := ih found
        rwa [List.reverse_cons, List.append_assoc] at parts

theorem splitAlias?_infix {reference column name : Text} (found : splitAlias? reference = some (column, name)) :
    column <:+: reference ∧ name <:+: reference := by
  obtain ⟨first, second⟩ := splitAliasAfter_infix found
  exact ⟨first.trans (Text.trim_infix reference), second.trans (Text.trim_infix reference)⟩

/-! ### Quoting -/

theorem carries_enclose (flavor : Flavor) {name : Text} (carries : Carries name []) : Carries (enclose flavor name) [] := by
  cases flavor with
  | mssql =>
    have inner : Carries (Text.double ']' name) [] := carries.double (by decide) (by decide)
    exact .literal "[" rfl (inner.behind "]" rfl rfl)
  | mysql => exact ⟨[], .quoted_alone (by decide) name, rfl⟩
  | postgres | sqlite | oracle => exact ⟨[], .quoted_alone (by decide) name, rfl⟩

theorem carries_quote (flavor : Flavor) {name : Text} (carries : Carries name []) : Carries (quote flavor name) [] := by
  unfold quote
  split
  · exact carries
  · exact carries_enclose flavor carries

theorem carries_quoteTable {flavor : Flavor} {reference text : Text} (nameable : Nameable reference)
    (done : quoteTable flavor reference = .ok text) : Carries text [] := by
  obtain ⟨parts, cut, rfl⟩ := Outcome.map_eq_ok.mp done
  refine .join_nil "." rfl rfl ?_
  intro part member
  obtain ⟨name, inside, rfl⟩ := List.mem_map.mp member
  exact carries_quote flavor (nameable.of_infix (infix_of_segments cut name inside)).carries

theorem carries_quoteColumn {flavor : Flavor} {reference text : Text} (nameable : Nameable reference)
    (done : quoteColumn flavor reference = .ok text) : Carries text [] := by
  unfold quoteColumn at done
  split at done
  · next column name found =>
    obtain ⟨inside, inside'⟩ := splitAlias?_infix found
    obtain ⟨quoted, table, rfl⟩ := Outcome.map_eq_ok.mp done
    have shortName := carries_quote flavor (nameable.of_infix ((Text.trim_infix name).trans inside')).carries
    have whole := (carries_quoteTable (nameable.of_infix inside) table).append (shortName.literal " AS " rfl)
      (.of_head rfl _)
    rwa [← List.append_assoc] at whole
  · exact carries_quoteTable nameable done

theorem carries_quoteTableValue {flavor : Flavor} {reference : Value} {text : Text} (isName : reference.IsName)
    (done : quoteTableValue flavor reference = .ok text) : Carries text [] := by
  obtain ⟨written, shown, quoted⟩ := Outcome.bind_eq_ok.mp done
  exact carries_quoteTable (isName written (.inl shown)) quoted

theorem carries_quoteColumnValue {flavor : Flavor} {reference : Value} {text : Text} (isName : reference.IsName)
    (done : quoteColumnValue flavor reference = .ok text) : Carries text [] := by
  obtain ⟨written, shown, quoted⟩ := Outcome.bind_eq_ok.mp done
  exact carries_quoteColumn (isName written (.inl shown)) quoted

theorem carries_quoteColumns {flavor : Flavor} {references : List Value} {texts : List Text}
    (names : ∀ reference ∈ references, reference.IsName) (done : quoteColumns flavor references = .ok texts) :
    ∀ text ∈ texts, Carries text [] :=
  Outcome.forall_of_mapM done fun reference member _ quoted => carries_quoteColumnValue (names reference member) quoted

end Identifier

/-! ### Output names -/

namespace OutputColumn

theorem dropQuote_suffix (text : Text) : dropQuote text <:+ text := by
  unfold dropQuote
  split
  · exact List.suffix_cons _ _
  · exact List.suffix_rfl

/-- A part of a text that can be a name. -/
def IsRun (run text : Text) : Prop :=
  run <:+: text ∧ ∀ c ∈ run, isNamePart c = true

theorem name?_some {text run after : Text} (found : name? text = some (run, after)) :
    IsRun run text ∧ after <:+ text := by
  simp only [name?] at found
  split at found
  · cases found
  · obtain ⟨rfl, rfl⟩ := Prod.mk.inj (Option.some.inj found)
    refine ⟨⟨?_, fun c member => List.mem_takeWhile_imp member⟩, ?_⟩
    · exact (List.takeWhile_prefix _).isInfix.trans (dropQuote_suffix text).isInfix
    · exact (dropQuote_suffix _).trans ((List.drop_suffix _ _).trans (dropQuote_suffix text))

theorem aliasAtEnd?_some {text run : Text} (found : aliasAtEnd? text = some run) : IsRun run text := by
  unfold aliasAtEnd? at found
  split at found
  · next blank rest =>
    split at found
    · split at found
      · next a s blank' further dropped =>
        split at found
        · split at found
          · next name after here =>
            split at found
            · obtain rfl := Option.some.inj found
              obtain ⟨⟨inside, parts⟩, -⟩ := name?_some here
              have behind : further.dropWhile Text.isBlank <:+ (blank :: rest).dropWhile Text.isBlank := by
                rw [dropped]
                exact (List.dropWhile_suffix _).trans
                  ((List.suffix_cons blank' _).trans ((List.suffix_cons s _).trans (List.suffix_cons a _)))
              exact ⟨inside.trans (behind.trans (List.dropWhile_suffix _)).isInfix, parts⟩
            · cases found
          · cases found
        · cases found
      · cases found
    · cases found
  · cases found

theorem finish?_some {column after text run : Text} (isRun : IsRun column text) (behind : after <:+ text)
    (found : finish? column after = some run) : IsRun run text := by
  unfold finish? at found
  split at found
  · obtain rfl := Option.some.inj found
    exact isRun
  · obtain ⟨inside, parts⟩ := aliasAtEnd?_some found
    exact ⟨inside.trans behind.isInfix, parts⟩

theorem ofReference?_some {reference run : Text} (found : ofReference? reference = some run) :
    IsRun run reference := by
  obtain ⟨⟨first, after⟩, here, further⟩ := Option.bind_eq_some_iff.mp found
  obtain ⟨isRun, behind⟩ := name?_some here
  simp only at further
  split at further
  · next rest =>
    obtain ⟨⟨second, after'⟩, there, last⟩ := Option.bind_eq_some_iff.mp further
    obtain ⟨⟨inside, parts⟩, behind'⟩ := name?_some there
    have within : rest <:+ reference := (List.suffix_cons _ _).trans behind
    exact finish?_some ⟨inside.trans within.isInfix, parts⟩ (behind'.trans within) last
  · exact finish?_some isRun behind further

theorem not_isQuote_of_isNamePart {c : Char} (part : isNamePart c = true) : Quoted.isQuote c = false := by
  by_contra quote
  have one : (c = '\'' ∨ c = '"') ∨ c = '\x60' := by
    simpa only [Bool.not_eq_false, Quoted.isQuote, Bool.or_eq_true, decide_eq_true_eq] using quote
  rcases one with (rfl | rfl) | rfl <;> revert part <;> decide

/-- The output name of an expression is a name, and so is an expression that has no output name when it is quoted. -/
theorem carries_targetColumn {flavor : Flavor} {column : Value} {text : Text} (isExpression : column.IsExpression)
    (done : Insert.targetColumn flavor column = .ok text) : Carries text [] := by
  obtain ⟨reference, shown, rfl⟩ := Outcome.map_eq_ok.mp done
  have expressible := isExpression reference (.inr (.inl shown))
  refine Identifier.carries_quote flavor ?_
  cases found : ofReference? reference with
  | none => exact expressible.carries
  | some run =>
    obtain ⟨inside, parts⟩ := ofReference?_some found
    have nameable : Nameable run :=
      ⟨fun c member => not_isQuote_of_isNamePart (parts c member), expressible.numberless.of_infix inside⟩
    exact nameable.carries

end OutputColumn

end SqlCompose
