import Mathlib
import SqlCompose.Proofs.Quotations

/-!
# Tokens spelled out

Where two texts meet, a dollar sign at the end of one and a word at the beginning of the other can make a schema token that neither has. With its schema tokens spelled out character by character a text has nothing of this kind: the spelling of two texts one behind the other is the one spelling behind the other (`Token.spelling_append`, `Token.spelling_join`). Markers, placeholders and quoted regions stand in the spelling as they do in the tokens, so what depends on them alone can be said of texts part by part.
-/

namespace SqlCompose

namespace Token

/-- A schema token as the characters that it is written with; any other token is itself. -/
def spelled : Token → List Token
  | schema digits => (source (schema digits)).map plain
  | token => [token]

/-- The tokens of a text, its schema tokens spelled out. -/
def spelling (text : Text) : List Token :=
  (read text).flatMap spelled

/-! ### What the spelling shows -/

theorem write_plain (run : Text) : write (run.map plain) = run := by
  induction run with
  | nil => rfl
  | cons c run ih => rw [List.map_cons, write_cons, ih, source_plain, List.singleton_append]

theorem withNumbers_eq (number : Nat → Nat) (text : Text) : withNumbers number text = write ((spelling text).map (withNumber number)) := by
  rw [withNumbers, spelling]
  induction read text with
  | nil => rfl
  | cons token rest ih =>
    rw [List.map_cons, write_cons, ih, List.flatMap_cons, List.map_append, write_append]
    congr 1
    cases token with
    | schema digits =>
      rw [spelled, List.map_map]
      exact (write_plain _).symm
    | _ => simp [spelled]

theorem placeholders_eq (text : Text) : placeholders text = (spelling text).filterMap index? := by
  rw [placeholders, spelling]
  induction read text with
  | nil => rfl
  | cons token rest ih =>
    have numbers : (spelled token).filterMap index? = (index? token).toList := by
      cases token with
      | schema digits => exact List.filterMap_eq_nil_iff.mpr fun c member => by obtain ⟨_, -, rfl⟩ := List.mem_map.mp member; rfl
      | _ => rfl
    rw [List.flatMap_cons, List.filterMap_append, ← ih, numbers, List.filterMap_cons]
    cases index? token <;> rfl

theorem mem_spelling {text digits : Text} : placeholder digits ∈ spelling text ↔ placeholder digits ∈ read text := by
  rw [spelling, List.mem_flatMap]
  constructor
  · rintro ⟨token, member, inside⟩
    cases token with
    | schema digits' =>
      obtain ⟨c, -, same⟩ := List.mem_map.mp inside
      cases same
    | _ =>
      rw [List.mem_singleton.mp inside]
      exact member
  · exact fun member => ⟨_, member, List.mem_singleton.mpr rfl⟩

/-! ### Unquoted texts -/

/-- The tokens of an unquoted text, spelled out. -/
private def spell (text : Text) : List Token :=
  (ofUnquoted text).flatMap spelled

private theorem spell_plain {c : Char} (ordinary : isSign c = false) (rest : Text) : spell (c :: rest) = plain c :: spell rest := by
  rw [spell, ofUnquoted_plain ordinary, List.flatMap_cons]
  rfl

private theorem spell_run {run : Text} (ordinary : ∀ c ∈ run, isSign c = false) (rest : Text) :
    spell (run ++ rest) = run.map plain ++ spell rest := by
  induction run with
  | nil => rfl
  | cons c run ih =>
    obtain ⟨here, there⟩ := List.forall_mem_cons.mp ordinary
    rw [List.cons_append, spell_plain here, ih there]
    rfl

private theorem spell_placeholder {digits rest : Text} (some : digits ≠ []) (all : ∀ c ∈ digits, Text.isDigit c)
    (stop : rest.BeginsOutside Text.isDigit) : spell ('$' :: (digits ++ rest)) = placeholder digits :: spell rest := by
  rw [spell, ofUnquoted_placeholder some all stop, List.flatMap_cons]
  rfl

private theorem not_isSign_of_mem_schema {digits : Text} (all : ∀ c ∈ digits, Text.isDigit c) :
    ∀ c ∈ ("schema" : Text) ++ digits, isSign c = false := by
  intro c member
  rcases List.mem_append.mp member with letter | digit
  · have none : ("schema" : Text).all (fun c => !isSign c) = true := rfl
    simpa using List.all_eq_true.mp none c letter
  · exact not_isSign_of_isDigit (all c digit)

/-- Whether or not a dollar sign begins a schema token, it is spelled on its own if no digit follows. -/
private theorem spell_dollar {rest : Text} (stop : rest.BeginsOutside Text.isDigit) : spell ('$' :: rest) = plain '$' :: spell rest := by
  cases begun : afterDollar? rest with
  | none =>
    rw [spell, ofUnquoted_dollar begun, List.flatMap_cons]
    rfl
  | some answer =>
    obtain ⟨token, taken⟩ := answer
    rcases afterDollar?_eq_some begun with ⟨digits, text, rfl, rfl, rfl, some, all, -⟩ |
      ⟨digits, text, rfl, rfl, rfl, all, outside, apart⟩
    · obtain ⟨d, digits, rfl⟩ := List.exists_cons_of_ne_nil some
      have digit := all d (by simp)
      rw [stop d (by simp)] at digit
      cases digit
    · have letters := spell_run (not_isSign_of_mem_schema all) text
      rw [List.append_assoc] at letters
      rw [letters, spell, ofUnquoted_schema all outside apart, List.flatMap_cons, spelled, source_schema, List.map_cons, List.cons_append]
      rfl

private theorem spell_append (text : Text) {rest : Text} (apart : rest.BeginsOutside Text.isDigit) :
    spell (text ++ rest) = spell text ++ spell rest := by
  have reads := reads_ofUnquoted text
  generalize ofUnquoted text = tokens at reads
  induction reads with
  | nil => rfl
  | @marker text _ _ ih =>
    have here (text : Text) : spell ('?' :: text) = marker :: spell text := rfl
    rw [List.cons_append, here, here, ih, List.cons_append]
  | placeholder some all stop _ ih =>
    rw [List.cons_append, List.append_assoc, spell_placeholder some all (stop.append apart), spell_placeholder some all stop, ih,
      List.cons_append]
  | @schema digits text _ all _ _ _ ih =>
    have stop (text : Text) : Text.BeginsOutside Text.isDigit (("schema" : Text) ++ (digits ++ text)) := .of_head rfl _
    have letters (text : Text) : spell (("schema" : Text) ++ (digits ++ text)) = (("schema" : Text) ++ digits).map plain ++ spell text := by
      rw [← List.append_assoc, spell_run (not_isSign_of_mem_schema all)]
    rw [List.cons_append, List.append_assoc, List.append_assoc, spell_dollar (stop _), spell_dollar (stop _), letters, letters, ih,
      List.cons_append, List.append_assoc]
  | dollar nothing _ ih =>
    have stop := Slotted.stop_of_nothing nothing
    rw [List.cons_append, spell_dollar (stop.append apart), spell_dollar stop, ih, List.cons_append]
  | plain ordinary _ ih => rw [List.cons_append, spell_plain ordinary, spell_plain ordinary, ih, List.cons_append]

/-! ### Whole texts -/

private def spellSegment (segment : Segment) : List Token :=
  (ofSegment segment).flatMap spelled

private theorem spelling_eq (text : Text) : spelling text = (Quoted.segments text).flatMap spellSegment := by
  rw [spelling, read_eq, List.flatMap_assoc]
  rfl

private theorem flatMap_seam_spelling {left right : List Segment} (apart : (Quoted.whole right).BeginsOutside Text.isDigit) :
    (Quoted.seam left right).flatMap spellSegment = left.flatMap spellSegment ++ right.flatMap spellSegment := by
  fun_induction Quoted.seam left right with
  | case1 text text' rest =>
    have merged : spellSegment ⟨text ++ text', false⟩ = spellSegment ⟨text, false⟩ ++ spellSegment ⟨text', false⟩ := by
      rw [Quoted.whole_cons] at apart
      exact spell_append text apart.of_append
    rw [List.flatMap_cons, merged, List.flatMap_cons, List.flatMap_cons, List.flatMap_nil, List.append_nil, List.append_assoc]
  | case2 segment rest others _ ih => rw [List.flatMap_cons, ih apart, List.flatMap_cons, List.append_assoc]
  | case3 => rfl

theorem spelling_append {left right : Text} (balanced : Slotted.Balanced left) (quote : right.BeginsOutside Quoted.isQuote)
    (digit : right.BeginsOutside Text.isDigit) : spelling (left ++ right) = spelling left ++ spelling right := by
  rw [spelling_eq, Quoted.segments_append balanced quote, flatMap_seam_spelling (by rwa [Quoted.whole_segments]), spelling_eq, spelling_eq]

private theorem spell_append_of_no_dollar {run : Text} (none : '$' ∉ run) (rest : Text) : spell (run ++ rest) = spell run ++ spell rest := by
  induction run with
  | nil => rfl
  | cons c run ih =>
    rw [List.mem_cons, not_or] at none
    by_cases question : c = '?'
    · subst question
      have here (text : Text) : spell ('?' :: text) = marker :: spell text := rfl
      rw [List.cons_append, here, here, ih none.2, List.cons_append]
    · have ordinary : isSign c = false := by simpa [isSign, question] using fun same : c = '$' => none.1 same.symm
      rw [List.cons_append, spell_plain ordinary, spell_plain ordinary, ih none.2, List.cons_append]

/-- Text without quotes and dollar signs can stand in front of anything. -/
theorem spelling_append_of_neutral {run : Text} (none : ∀ c ∈ run, Quoted.isQuote c = false) (dollarless : '$' ∉ run) (rest : Text) :
    spelling (run ++ rest) = spelling run ++ spelling rest := by
  by_cases empty : run = []
  · rw [empty]
    rfl
  · obtain ⟨first, after, cut, alone, -⟩ := Quoted.segments_append_unquoted empty none rest
    have front : spellSegment ⟨run ++ first, false⟩ = spelling run ++ spell first := by
      rw [spelling_eq, Quoted.segments_of_no_quotes empty none, List.flatMap_singleton]
      exact spell_append_of_no_dollar dollarless first
    rw [spelling_eq, cut, List.flatMap_cons, front, spelling_eq rest, alone, Quoted.outside, List.append_assoc]
    congr 1
    split
    · next gone =>
      rw [List.isEmpty_iff.mp gone]
      rfl
    · rfl

/-- What separates texts: it has no quotes, no dollar signs and no digits. -/
structure Separates (separator : Text) : Prop where
  some : separator ≠ []
  quoteless : ∀ c ∈ separator, Quoted.isQuote c = false
  digitless : ∀ c ∈ separator, Text.isDigit c = false
  dollarless : '$' ∉ separator

namespace Separates

variable {separator : Text}

theorem digit (separates : Separates separator) (rest : Text) : (separator ++ rest).BeginsOutside Text.isDigit :=
  Text.BeginsOutside.append_of_ne_nil (fun c head => separates.digitless c (List.mem_of_mem_head? head)) separates.some rest

theorem quote (separates : Separates separator) (rest : Text) : (separator ++ rest).BeginsOutside Quoted.isQuote :=
  Text.BeginsOutside.append_of_ne_nil (fun c head => separates.quoteless c (List.mem_of_mem_head? head)) separates.some rest

/-- The spelling of texts with a separator between them. -/
theorem spelling_join (separates : Separates separator) {texts : List Text} (balanced : ∀ text ∈ texts, Slotted.Balanced text) :
    spelling (Text.join separator texts) = (spelling separator).intercalate (texts.map spelling) := by
  induction texts with
  | nil => rfl
  | cons text texts ih =>
    obtain ⟨here, there⟩ := List.forall_mem_cons.mp balanced
    cases texts with
    | nil => rw [Text.join, List.intercalate_singleton, List.map_singleton, List.intercalate_singleton]
    | cons next texts =>
      rw [Text.join, List.intercalate_cons_cons, List.append_assoc, spelling_append here (separates.quote _) (separates.digit _),
        spelling_append_of_neutral separates.quoteless separates.dollarless, ← Text.join, ih there, List.map_cons, List.map_cons,
        List.map_cons, List.intercalate_cons_cons, List.append_assoc]

private theorem flatMap_intercalate {α β : Type} (f : α → List β) (between : List α) (lists : List (List α)) :
    (between.intercalate lists).flatMap f = (between.flatMap f).intercalate (lists.map (·.flatMap f)) := by
  induction lists with
  | nil => rfl
  | cons list lists ih =>
    cases lists with
    | nil => rw [List.intercalate_singleton, List.map_singleton, List.intercalate_singleton]
    | cons next lists =>
      rw [List.intercalate_cons_cons, List.flatMap_append, List.flatMap_append, ih, List.map_cons, List.map_cons, List.map_cons,
        List.intercalate_cons_cons]

private theorem intercalate_nothing {α : Type} (lists : List (List α)) : ([] : List α).intercalate lists = lists.flatten := by
  induction lists with
  | nil => rfl
  | cons list lists ih =>
    cases lists with
    | nil => simp
    | cons next lists =>
      rw [List.intercalate_cons_cons, ih, List.append_nil]
      rfl

private theorem not_mem_read (separates : Separates separator) (digits : Text) : placeholder digits ∉ read separator := by
  intro member
  have inside : '$' ∈ write (read separator) := List.mem_flatMap.mpr ⟨_, member, List.mem_cons_self ..⟩
  rw [write_read] at inside
  exact separates.dollarless inside

private theorem withNumbers_separator (separates : Separates separator) (number : Nat → Nat) :
    withNumbers number separator = separator := by
  have same : (read separator).map (withNumber number) = read separator := by
    refine (List.map_congr_left fun token member => ?_).trans (List.map_id _)
    cases token with
    | placeholder digits => exact absurd member (separates.not_mem_read digits)
    | _ => rfl
  rw [withNumbers, same, write_read]

theorem withNumbers_join (separates : Separates separator) {texts : List Text} (balanced : ∀ text ∈ texts, Slotted.Balanced text)
    (number : Nat → Nat) : withNumbers number (Text.join separator texts) = Text.join separator (texts.map (withNumbers number)) := by
  have each (text : Text) : withNumbers number text = (spelling text).flatMap (fun token => (withNumber number token).source) := by
    rw [withNumbers_eq, write, List.flatMap_map]
  rw [each, separates.spelling_join balanced, flatMap_intercalate, ← each, separates.withNumbers_separator, List.map_map, Text.join]
  congr 1
  exact List.map_congr_left fun text _ => (each text).symm

theorem placeholders_join (separates : Separates separator) {texts : List Text} (balanced : ∀ text ∈ texts, Slotted.Balanced text) :
    placeholders (Text.join separator texts) = texts.flatMap placeholders := by
  have each (text : Text) : placeholders text = (spelling text).flatMap (fun token => token.index?.toList) := by
    rw [placeholders_eq, List.filterMap_eq_flatMap_toList]
  have none : placeholders separator = [] := List.filterMap_eq_nil_iff.mpr fun token member => by
    cases token with
    | placeholder digits => exact absurd member (separates.not_mem_read digits)
    | _ => rfl
  rw [each, separates.spelling_join balanced, flatMap_intercalate, ← each, none, intercalate_nothing, List.map_map, List.flatMap_def]
  congr 1
  exact List.map_congr_left fun text _ => (each text).symm

private theorem mem_intercalate {α : Type} {between : List α} {lists : List (List α)} {item : α}
    (member : item ∈ between.intercalate lists) : item ∈ between ∨ ∃ list ∈ lists, item ∈ list := by
  induction lists with
  | nil => cases member
  | cons list lists ih =>
    cases lists with
    | nil => exact .inr ⟨list, List.mem_singleton.mpr rfl, by rwa [List.intercalate_singleton] at member⟩
    | cons next lists =>
      rw [List.intercalate_cons_cons, List.append_assoc] at member
      rcases List.mem_append.mp member with here | further
      · exact .inr ⟨list, List.mem_cons_self .., here⟩
      · rcases List.mem_append.mp further with here | there
        · exact .inl here
        · exact (ih there).imp id fun ⟨found, inside, within⟩ => ⟨found, List.mem_cons_of_mem _ inside, within⟩

/-- Every placeholder of joined texts stands in one of them. -/
theorem exists_of_mem_join (separates : Separates separator) {texts : List Text} (balanced : ∀ text ∈ texts, Slotted.Balanced text)
    {digits : Text} (member : placeholder digits ∈ read (Text.join separator texts)) :
    ∃ text ∈ texts, placeholder digits ∈ read text := by
  rw [← mem_spelling, separates.spelling_join balanced] at member
  rcases mem_intercalate member with between | ⟨list, inside, within⟩
  · exact absurd (mem_spelling.mp between) (separates.not_mem_read digits)
  · obtain ⟨text, given, rfl⟩ := List.mem_map.mp inside
    exact ⟨text, given, mem_spelling.mp within⟩

end Separates

end Token

end SqlCompose
