import Mathlib
import SqlCompose.Proofs.Quotations
import SqlCompose.Proofs.Spelling

/-!
# Schemas are put in once

The name that a schema token becomes is spliced into a text which other scanners read again: for placeholders, for markers, and for schema tokens when the text is part of a statement that puts in schemas of its own. `Token.read_named` says what they read there: the tokens of the old text, with the letters of the names in the place of the schema tokens.

The one token that could read otherwise is a plain dollar sign, which looks ahead for digits or the word `schema`. It looks no further than to the next character that is no word character (`Token.afterDollar?_behind`), so it sees no name if such a character stands in front of every schema token.
-/

namespace SqlCompose

namespace Text

theorem isWord_of_isDigit {c : Char} (digit : isDigit c = true) : isWord c = true := by
  have covered : foreignZeros.all (fun nought => wordRanges.any fun range => range.1 ≤ nought && nought + 9 ≤ range.2) = true := by
    decide +kernel
  rw [isDigit, digitValue?] at digit
  rw [isWord]
  split at digit
  · next ascii =>
    rw [if_pos ascii]
    split at digit
    · next decimal => simp [Char.isAlphanum, decimal]
    · cases digit
  · next foreign =>
    rw [if_neg foreign, inRanges]
    rw [Option.isSome_map] at digit
    obtain ⟨nought, found⟩ := Option.isSome_iff_exists.mp digit
    have near := List.find?_some found
    obtain ⟨range, member, inside⟩ := List.any_eq_true.mp (List.all_eq_true.mp covered nought (List.mem_of_find?_eq_some found))
    simp only [Bool.and_eq_true, decide_eq_true_eq] at near inside
    refine List.any_eq_true.mpr ⟨range, member, ?_⟩
    simp only [Bool.and_eq_true, decide_eq_true_eq]
    omega

end Text

namespace Outcome

variable {α β : Type} {f : α → Except Error β} {items : List α}

theorem forall_exists_of_mapM {results : List β} (done : items.mapM f = .ok results) : ∀ item ∈ items, ∃ result, f item = .ok result := by
  have all := mapM_eq_ok.mp done
  clear done
  induction all with
  | nil => simp
  | cons here _ ih => exact List.forall_mem_cons.mpr ⟨⟨_, here⟩, ih⟩

/-- A traversal fails with the failure of the first step that does. -/
theorem mapM_eq_error {error : Error} :
    items.mapM f = .error error ↔ ∃ before item after, items = before ++ item :: after ∧
      (∀ other ∈ before, ∃ result, f other = .ok result) ∧ f item = .error error := by
  induction items with
  | nil => simp
  | cons item items ih =>
    rw [List.mapM_cons]
    cases here : f item with
    | error first =>
      rw [bind_error]
      constructor
      · intro same
        rw [Except.error.inj same] at here
        exact ⟨[], item, items, rfl, by simp, here⟩
      · rintro ⟨before, other, after, pieces, fine, failed⟩
        cases before with
        | nil =>
          obtain ⟨rfl, -⟩ := List.cons.inj pieces
          rw [Except.error.inj (here.symm.trans failed)]
        | cons first' before =>
          obtain ⟨rfl, -⟩ := List.cons.inj pieces
          obtain ⟨result, done⟩ := fine item List.mem_cons_self
          rw [here] at done
          cases done
    | ok result =>
      have further : (Except.ok result >>= fun first => items.mapM f >>= fun others => pure (first :: others)) = .error error ↔
          items.mapM f = .error error := by
        rw [bind_ok, bind_eq_error]
        simp
      rw [further, ih]
      constructor
      · rintro ⟨before, other, after, rfl, fine, failed⟩
        exact ⟨item :: before, other, after, rfl, List.forall_mem_cons.mpr ⟨⟨result, here⟩, fine⟩, failed⟩
      · rintro ⟨before, other, after, pieces, fine, failed⟩
        cases before with
        | nil =>
          obtain ⟨rfl, -⟩ := List.cons.inj pieces
          rw [here] at failed
          cases failed
        | cons first before =>
          obtain ⟨rfl, rfl⟩ := List.cons.inj pieces
          exact ⟨before, other, after, rfl, (List.forall_mem_cons.mp fine).2, failed⟩

end Outcome

namespace Token

/-! ### How far a dollar sign looks -/

/-- What begins after a dollar sign is settled by the next character that is no word character. -/
theorem afterDollar?_behind {front : Text} {c : Char} (apart : Text.isWord c = false) {rest : Text}
    (nothing : afterDollar? (front ++ c :: rest) = none) (rest' : Text) : afterDollar? (front ++ c :: rest') = none := by
  have undigital : Text.isDigit c = false := by
    by_contra digit
    rw [Text.isWord_of_isDigit (by simpa using digit)] at apart
    cases apart
  by_contra something
  obtain ⟨⟨token, taken⟩, found⟩ := Option.ne_none_iff_exists'.mp something
  rcases afterDollar?_eq_some found with ⟨digits, tail, -, pieces, -, some, all, stop⟩ |
    ⟨digits, tail, -, pieces, -, all, stop, word⟩
  · obtain ⟨behind, rfl, rfl⟩ := exists_behind pieces all (.cons undigital)
    rw [List.append_assoc, afterDollar?_placeholder some all (stop.of_append.append (.cons undigital))] at nothing
    cases nothing
  · have letters : ∀ d ∈ ("schema" : Text) ++ digits, Text.isWord d = true :=
      List.forall_mem_append.mpr ⟨isWord_schema, fun d member => Text.isWord_of_isDigit (all d member)⟩
    rw [← List.append_assoc] at pieces
    obtain ⟨behind, rfl, rfl⟩ := exists_behind pieces letters (.cons apart)
    rw [List.append_assoc, List.append_assoc, afterDollar?_schema all (stop.of_append.append (.cons undigital))
      (word.of_append.append (.cons apart))] at nothing
    cases nothing

/-! ### Schema tokens that stand apart -/

def isSchema : Token → Bool
  | schema _ => true
  | _ => false

/-- No schema token stands right behind a word character or a dollar sign. -/
def SchemasApart (tokens : List Token) : Prop :=
  ∀ before digits after, tokens = before ++ schema digits :: after →
    ∀ c ∈ (write before).getLast?, Text.isWord c = false ∧ c ≠ '$'

namespace SchemasApart

theorem of_infix {part tokens : List Token} (apart : SchemasApart tokens) (inside : part <:+: tokens) : SchemasApart part := by
  obtain ⟨front, back, rfl⟩ := inside
  rintro before digits after rfl c last
  refine apart (front ++ before) digits (after ++ back) (by simp) c ?_
  rw [write_append, List.getLast?_append, Option.mem_def.mp last]
  rfl

theorem tail {token : Token} {rest : List Token} (apart : SchemasApart (token :: rest)) : SchemasApart rest :=
  apart.of_infix (List.suffix_cons token rest).isInfix

end SchemasApart

instance (tokens : List Token) : Decidable (SchemasApart tokens) :=
  decidable_of_iff (∀ i : Fin tokens.length, tokens[i].isSchema = true →
      (write (tokens.take i)).getLast?.all (fun c => !Text.isWord c && c != '$') = true) <| by
    simp only [Option.all_eq_true, Bool.and_eq_true, Bool.not_eq_true', bne_iff_ne]
    constructor
    · rintro all before digits after rfl
      have here := all ⟨before.length, by simp⟩
      simpa [isSchema] using here
    · intro apart i isSchema
      have pieces : tokens = tokens.take i ++ tokens[i] :: tokens.drop (i + 1) := by simp
      cases token : tokens[i] with
      | schema digits =>
        rw [token] at pieces
        exact apart _ digits _ pieces
      | _ => simp [token, Token.isSchema] at isSchema

/-! ### Names among the tokens -/

open Slotted (withSchema IsName)

/-- A token, or the letters of the name that it stands for. -/
def named (schemas : List Value) : Token → List Token
  | schema digits => (withSchema schemas (.schema digits)).map plain
  | token => [token]

variable {schemas : List Value}

theorem write_named (tokens : List Token) : write (tokens.flatMap (named schemas)) = tokens.flatMap (withSchema schemas) := by
  induction tokens with
  | nil => rfl
  | cons token rest ih =>
    rw [List.flatMap_cons, List.flatMap_cons, write_append, ih]
    congr 1
    cases token with
    | schema digits => exact write_plain _
    | _ => exact List.append_nil _

private theorem flatMap_named_of_no_schema {tokens : List Token} (none : ∀ token ∈ tokens, token.isSchema = false) :
    tokens.flatMap (named schemas) = tokens := by
  induction tokens with
  | nil => rfl
  | cons token rest ih =>
    obtain ⟨here, there⟩ := List.forall_mem_cons.mp none
    rw [List.flatMap_cons, ih there]
    cases token with
    | schema digits => cases here
    | _ => rfl

/-- A plain dollar sign stays plain: what it looks at ends in front of the first name. -/
private theorem afterDollar?_named {tokens : List Token} (nothing : afterDollar? (write tokens) = none)
    (apart : SchemasApart (plain '$' :: tokens)) : afterDollar? (write (tokens.flatMap (named schemas))) = none := by
  cases first : tokens.find? isSchema with
  | none =>
    have none : ∀ token ∈ tokens, token.isSchema = false := fun token member => by
      simpa using List.find?_eq_none.mp first token member
    rwa [flatMap_named_of_no_schema none]
  | some token =>
    obtain ⟨isSchema, before, after, rfl, earlier⟩ := List.find?_eq_some_iff_append.mp first
    have none : ∀ token ∈ before, token.isSchema = false := fun token member => by simpa using earlier token member
    cases token with
    | schema digits =>
      have last := apart (plain '$' :: before) digits after rfl
      rw [write_cons, source_plain, List.getLast?_append] at last
      rw [List.flatMap_append, flatMap_named_of_no_schema none, write_append]
      rw [write_append] at nothing
      rcases List.eq_nil_or_concat (write before) with empty | ⟨front, c, shape⟩
      · rw [empty] at last
        exact absurd rfl (last '$' rfl).2
      · rw [List.concat_eq_append] at shape
        rw [shape, List.append_assoc, List.singleton_append] at nothing ⊢
        rw [shape, List.getLast?_concat] at last
        exact afterDollar?_behind (last c rfl).1 nothing _
    | _ => cases isSchema

/-- An unquoted text with names in the place of its schema tokens reads as it is written. -/
theorem Reads.withNames {text : Text} {tokens : List Token} (reads : Reads text tokens)
    (names : ∀ digits, .schema digits ∈ tokens → IsName (withSchema schemas (.schema digits))) (apart : SchemasApart tokens) :
    Reads (write (tokens.flatMap (named schemas))) (tokens.flatMap (named schemas)) := by
  have outside : ∀ {tokens : List Token}, Numerals tokens →
      (∀ digits, .schema digits ∈ tokens → IsName (withSchema schemas (.schema digits))) →
      (write tokens).BeginsOutside Text.isDigit →
      (write (tokens.flatMap (named schemas))).BeginsOutside Text.isDigit := fun numerals names stop => by
    have rewritten : Slotted.Rewritten False _ _ _ := .withSchemas numerals False.elim names
    rw [write_named]
    exact rewritten.beginsOutside stop
  induction reads with
  | nil => exact .nil
  | marker _ ih => exact .marker (ih (fun digits member => names digits (List.mem_cons_of_mem _ member)) apart.tail)
  | placeholder some all stop others ih =>
    have further := fun digits member => names digits (List.mem_cons_of_mem _ member)
    rw [← others.write_eq] at stop
    exact .placeholder some all (outside others.numerals further stop) (ih further apart.tail)
  | @schema digits _ _ _ _ _ _ ih =>
    have name := names digits List.mem_cons_self
    have rest := (ih (fun digits member => names digits (List.mem_cons_of_mem _ member)) apart.tail).ofUnquoted_eq
    rw [List.flatMap_cons, write_append, reads_iff]
    change ofUnquoted (write ((withSchema schemas (.schema digits)).map Token.plain) ++ _) = _
    rw [write_plain, ofUnquoted_append_plain fun c member => not_isSign_of_isPlain (name.ordinary c member), rest]
    rfl
  | dollar nothing others ih =>
    rw [← others.write_eq] at nothing
    exact .dollar (afterDollar?_named nothing apart)
      (ih (fun digits member => names digits (List.mem_cons_of_mem _ member)) apart.tail)
  | plain ordinary _ ih =>
    exact .plain ordinary (ih (fun digits member => names digits (List.mem_cons_of_mem _ member)) apart.tail)

/-! ### Whole texts -/

private theorem isInfix_ofSegment {segment : Segment} {pieces : List Segment} (member : segment ∈ pieces) :
    ofSegment segment <:+: pieces.flatMap ofSegment := by
  obtain ⟨front, back, rfl⟩ := List.append_of_mem member
  exact ⟨front.flatMap ofSegment, back.flatMap ofSegment, by simp⟩

/-- A segment with names in the place of its schema tokens. -/
private def renamedSegment (schemas : List Value) (segment : Segment) : Segment :=
  ⟨write ((ofSegment segment).flatMap (named schemas)), segment.quoted⟩

private theorem recut_renamedSegment {text : Text} (names : ∀ digits, schema digits ∈ read text → IsName (withSchema schemas (.schema digits)))
    {segment : Segment} (member : segment ∈ Quoted.segments text) : Quoted.Recut segment (renamedSegment schemas segment) := by
  obtain ⟨inside, isQuoted⟩ := segment
  cases isQuoted with
  | true =>
    obtain ⟨quote, inner, rfl⟩ := Quoted.exists_of_quoted_mem member
    have same : renamedSegment schemas ⟨quote :: (Text.double quote inner ++ [quote]), true⟩ =
        ⟨quote :: (Text.double quote inner ++ [quote]), true⟩ := by
      simp [renamedSegment, ofSegment, named]
    rw [same]
    exact .quoted quote (.refl inner)
  | false =>
    have within := (isInfix_ofSegment member).subset
    have restyled : Restyled (ofSegment ⟨inside, false⟩) ((ofSegment ⟨inside, false⟩).flatMap (withSchema schemas)) := by
      refine .flatMap (fun token here => coded_read text token (within here)) fun token here => ?_
      cases token with
      | schema digits =>
        have name := names digits (within here)
        exact .inr ⟨rfl, name.nonempty, fun c letter => not_isQuote_of_isPlain (name.ordinary c letter)⟩
      | _ => exact .inl rfl
    have same := restyled.sameQuotes
    rw [write_ofSegment, ← write_named] at same
    exact .unquoted same

private theorem ofSegment_renamedSegment {segment : Segment}
    (names : ∀ digits, schema digits ∈ ofSegment segment → IsName (withSchema schemas (.schema digits)))
    (apart : SchemasApart (ofSegment segment)) :
    ofSegment (renamedSegment schemas segment) = (ofSegment segment).flatMap (named schemas) := by
  obtain ⟨inside, isQuoted⟩ := segment
  cases isQuoted with
  | true => simp [renamedSegment, ofSegment, named]
  | false => exact ((reads_ofUnquoted inside).withNames names apart).ofUnquoted_eq

/-- A text with names in the place of its schema tokens reads as it is written. -/
theorem read_named {text : Text} (names : ∀ digits, schema digits ∈ read text → IsName (withSchema schemas (.schema digits)))
    (apart : SchemasApart (read text)) :
    read (write ((read text).flatMap (named schemas))) = (read text).flatMap (named schemas) := by
  have recut : ∀ segment ∈ Quoted.segments text, Quoted.Recut segment (renamedSegment schemas segment) := fun _ member =>
    recut_renamedSegment names member
  have cut := Quoted.segments_recut (List.forall₂_map_right_iff.mpr (List.forall₂_same.mpr recut))
  have whole : Quoted.whole ((Quoted.segments text).map (renamedSegment schemas)) = write ((read text).flatMap (named schemas)) := by
    rw [read_eq]
    induction Quoted.segments text with
    | nil => rfl
    | cons segment rest ih =>
      rw [List.map_cons, Quoted.whole_cons, ih, List.flatMap_cons, List.flatMap_append, write_append]
      rfl
  rw [whole] at cut
  rw [read_eq, cut, read_eq, List.flatMap_map, List.flatMap_assoc]
  refine List.flatMap_congr fun segment member => ?_
  have inside := isInfix_ofSegment member
  exact ofSegment_renamedSegment (fun digits here => names digits (inside.subset here)) (apart.of_infix inside)

/-! ### What is found in the text -/

private theorem filterMap_named {α : Type} {f : Token → Option α} (letters : ∀ c, f (plain c) = none)
    (schemas' : ∀ digits, f (schema digits) = none) (tokens : List Token) :
    (tokens.flatMap (named schemas)).filterMap f = tokens.filterMap f := by
  induction tokens with
  | nil => rfl
  | cons token rest ih =>
    rw [List.flatMap_cons, List.filterMap_append, ih, ← List.singleton_append (x := token), List.filterMap_append]
    congr 1
    cases token with
    | schema digits => simp [named, letters, schemas']
    | _ => rfl

private theorem countP_named (tokens : List Token) : (tokens.flatMap (named schemas)).countP isMarker = tokens.countP isMarker := by
  induction tokens with
  | nil => rfl
  | cons token rest ih =>
    rw [List.flatMap_cons, List.countP_append, ih, ← List.singleton_append (x := token), List.countP_append]
    congr 1
    cases token with
    | schema digits => simp [named, isMarker, List.countP_eq_zero]
    | _ => rfl

private theorem schema_not_mem_named (digits : Text) (tokens : List Token) : schema digits ∉ tokens.flatMap (named schemas) := by
  intro member
  obtain ⟨token, -, inside⟩ := List.mem_flatMap.mp member
  cases token with
  | schema digits' =>
    obtain ⟨c, -, same⟩ := List.mem_map.mp (show _ ∈ List.map plain _ from inside)
    cases same
  | _ => cases List.mem_singleton.mp (show _ ∈ [_] from inside)

private theorem forM_named {f : Token → Except Error Unit} (letters : ∀ c, f (plain c) = .ok ())
    (schemas' : ∀ digits, f (schema digits) = .ok ()) (tokens : List Token) :
    (tokens.flatMap (named schemas)).forM f = tokens.forM f := by
  have spelled (run : Text) (rest : List Token) : (run.map plain ++ rest).forM f = rest.forM f := by
    induction run with
    | nil => rfl
    | cons c run ih =>
      change (f (plain c) >>= fun _ => (run.map plain ++ rest).forM f) = _
      rw [letters, Outcome.bind_ok, ih]
  induction tokens with
  | nil => rfl
  | cons token rest ih =>
    rw [List.flatMap_cons]
    change _ = (f token >>= fun _ => rest.forM f)
    rw [← ih]
    cases token with
    | schema digits =>
      rw [schemas', Outcome.bind_ok]
      exact spelled _ _
    | _ => rfl

end Token

namespace Identifier

/-! ### Putting schemas in, token by token -/

open Token

/-- What a token is written as when the schemas have the given names. -/
def renamed (names : List Text) (token : Token) : Except Error Text :=
  (withSchemas (names.map .text) token).bind schemaText

private theorem withSchemas_text {names : List Text} {token : Token} {value : Value}
    (found : withSchemas (names.map .text) token = .ok value) : ∃ text, value = .text text := by
  cases token with
  | schema digits =>
    obtain ⟨index, -, chosen⟩ := Outcome.bind_eq_ok.mp found
    rw [List.getElem?_map] at chosen
    cases here : names[index]? with
    | none =>
      rw [here] at chosen
      obtain ⟨_, -, refused⟩ := Outcome.bind_eq_ok.mp chosen
      cases refused
    | some name =>
      rw [here] at chosen
      exact ⟨name, (Except.ok.inj chosen).symm⟩
  | _ => exact ⟨_, (Except.ok.inj found).symm⟩

private theorem substituteUnquoted_eq (names : List Text) (text : Text) :
    substituteUnquoted (names.map .text) text = ((ofUnquoted text).mapM (renamed names)).map List.flatten := by
  -- A name is written without fail, so the second traversal adds no failure to those of the first.
  have merged (tokens : List Token) :
      (tokens.mapM (withSchemas (names.map .text)) >>= fun pieces => pieces.mapM schemaText) = tokens.mapM (renamed names) := by
    induction tokens with
    | nil => rfl
    | cons token rest ih =>
      rw [List.mapM_cons, List.mapM_cons, ← ih]
      cases found : withSchemas (names.map .text) token with
      | error error => simp [renamed, found, Except.bind]
      | ok value =>
        obtain ⟨name, rfl⟩ := withSchemas_text found
        have here : renamed names token = .ok name := by rw [renamed, found]; rfl
        rw [here]
        cases rest.mapM (withSchemas (names.map .text)) with
        | error error => rfl
        | ok values =>
          simp only [Outcome.bind_ok, Outcome.pure_eq, List.mapM_cons]
          rfl
  rw [substituteUnquoted, ← merged]
  cases (ofUnquoted text).mapM (withSchemas (names.map .text)) with
  | error error => rfl
  | ok values => cases values.mapM schemaText <;> rfl

/-- Texts that are written piece by piece, or all in a row. -/
private theorem flatten_mapM {α β : Type} (pieces : α → List β) (writing : β → Except Error Text) (items : List α) :
    (items.mapM fun item => ((pieces item).mapM writing).map List.flatten).map List.flatten =
      ((items.flatMap pieces).mapM writing).map List.flatten := by
  induction items with
  | nil => rfl
  | cons item rest ih =>
    rw [List.mapM_cons, List.flatMap_cons, List.mapM_append]
    cases (pieces item).mapM writing with
    | error error => rfl
    | ok first =>
      cases parts : rest.mapM (fun item => ((pieces item).mapM writing).map List.flatten) <;>
        cases all : (rest.flatMap pieces).mapM writing <;>
          simp_all [Except.map]

/-- The tokens of a text are written one by one, and the first that cannot be written makes the text fail. -/
theorem substituteSchemas_eq (names : List Text) (text : Text) :
    substituteSchemas (names.map .text) text = ((read text).mapM (renamed names)).map List.flatten := by
  have each : (fun segment : Segment => if segment.quoted then .ok segment.text else substituteUnquoted (names.map .text) segment.text) =
      fun segment => ((ofSegment segment).mapM (renamed names)).map List.flatten := by
    funext ⟨inside, isQuoted⟩
    cases isQuoted with
    | true =>
      change Except.ok inside = Except.ok (inside ++ [])
      rw [List.append_nil]
    | false => exact substituteUnquoted_eq names inside
  rw [read_eq, ← flatten_mapM, substituteSchemas, each]
  cases (Quoted.segments text).mapM fun segment => ((ofSegment segment).mapM (renamed names)).map List.flatten <;> rfl

private theorem renamed_of_not_isSchema (names : List Text) {token : Token} (other : token.isSchema = false) :
    renamed names token = .ok token.source := by
  cases token with
  | schema digits => cases other
  | _ => rfl

private theorem shownItems_texts (names : List Text) : Value.shownItems (names.map .text) = .ok (names.map Text.shown) := by
  induction names with
  | nil => rfl
  | cons name names ih =>
    have first : (Value.text name).shown = .ok (Text.shown name) := by rw [Value.shown, Value.shownScalar] <;> simp
    rw [List.map_cons, Value.shownItems, first, Outcome.bind_ok, ih]
    rfl

private theorem renamed_schema (names : List Text) (digits : Text) :
    (Numeral.digitLimit < digits.length ∧ renamed names (.schema digits) = .error (.numeralTooLong digits.length)) ∨
    (digits.length ≤ Numeral.digitLimit ∧ names.length ≤ Text.numeralValue digits ∧
      ∃ index shown, renamed names (.schema digits) = .error (.schemaIndex index shown)) ∨
    (digits.length ≤ Numeral.digitLimit ∧ Text.numeralValue digits < names.length ∧
      ∃ name, renamed names (.schema digits) = .ok name) := by
  rw [renamed, withSchemas, schemaNamed, Numeral.read]
  by_cases short : digits.length ≤ Numeral.digitLimit
  · rw [if_pos short, Outcome.bind_ok, List.getElem?_map]
    by_cases inside : Text.numeralValue digits < names.length
    · rw [List.getElem?_eq_getElem inside]
      exact .inr (.inr ⟨short, inside, _, rfl⟩)
    · rw [List.getElem?_eq_none (by omega), Option.map_none, Value.shown, shownItems_texts]
      exact .inr (.inl ⟨short, by omega, _, _, rfl⟩)
  · rw [if_neg short]
    exact .inl ⟨by omega, rfl⟩

private theorem renamed_eq_ok {names : List Text} {token : Token} (fine : ∃ name, renamed names token = .ok name) {digits : Text}
    (same : token = .schema digits) : digits.length ≤ Numeral.digitLimit ∧ Text.numeralValue digits < names.length := by
  obtain ⟨name, done⟩ := fine
  subst same
  rcases renamed_schema names digits with ⟨-, failed⟩ | ⟨-, -, _, _, failed⟩ | ⟨short, inside, -⟩
  · rw [failed] at done
    cases done
  · rw [failed] at done
    cases done
  · exact ⟨short, inside⟩

private theorem exists_renamed {names : List Text} {token : Token}
    (inside : ∀ digits, token = .schema digits → digits.length ≤ Numeral.digitLimit ∧ Text.numeralValue digits < names.length) :
    ∃ name, renamed names token = .ok name := by
  cases token with
  | schema digits =>
    obtain ⟨short, within⟩ := inside digits rfl
    rcases renamed_schema names digits with ⟨long, -⟩ | ⟨-, beyond, -⟩ | ⟨-, -, found⟩
    · omega
    · omega
    · exact found
  | _ => exact ⟨_, renamed_of_not_isSchema names rfl⟩

/-- What makes a text fail is the first of its tokens that cannot be written. -/
private theorem substituteSchemas_eq_error {names : List Text} {text : Text} {error : Error} :
    substituteSchemas (names.map .text) text = .error error ↔ ∃ before digits after,
      read text = before ++ .schema digits :: after ∧ renamed names (.schema digits) = .error error ∧
        ∀ earlier, .schema earlier ∈ before → earlier.length ≤ Numeral.digitLimit ∧ Text.numeralValue earlier < names.length := by
  have mapped {result : Except Error (List Text)} : result.map List.flatten = .error error ↔ result = .error error := by
    cases result <;> simp [Except.map]
  rw [substituteSchemas_eq, mapped, Outcome.mapM_eq_error]
  constructor
  · rintro ⟨before, token, after, pieces, fine, failed⟩
    cases token with
    | schema digits => exact ⟨before, digits, after, pieces, failed, fun earlier member => renamed_eq_ok (fine _ member) rfl⟩
    | _ =>
      rw [renamed_of_not_isSchema names rfl] at failed
      cases failed
  · rintro ⟨before, digits, after, pieces, failed, fine⟩
    refine ⟨before, _, after, pieces, fun token member => exists_renamed ?_, failed⟩
    rintro earlier rfl
    exact fine earlier member

/-- If some token at the front cannot be written, the one that makes the text fail is one of those. -/
private theorem exists_error {names : List Text} {text : Text} {front after : List Token} (pieces : read text = front ++ after)
    (faulty : ∃ digits, .schema digits ∈ front ∧ ¬ (digits.length ≤ Numeral.digitLimit ∧ Text.numeralValue digits < names.length)) :
    ∃ digits error, .schema digits ∈ front ∧ renamed names (.schema digits) = .error error ∧
      substituteSchemas (names.map .text) text = .error error := by
  obtain ⟨digits, member, wrong⟩ := faulty
  cases run : front.mapM (renamed names) with
  | ok texts =>
    exact absurd (renamed_eq_ok (Outcome.forall_exists_of_mapM run _ member) rfl) wrong
  | error error =>
    obtain ⟨before, token, rest, rfl, fine, failed⟩ := Outcome.mapM_eq_error.mp run
    cases token with
    | schema first =>
      refine ⟨first, error, by simp, failed, substituteSchemas_eq_error.mpr ⟨before, first, rest ++ after, ?_, failed, ?_⟩⟩
      · rw [pieces, List.append_assoc, List.cons_append]
      · exact fun earlier inside => renamed_eq_ok (fine _ inside) rfl
    | _ =>
      rw [renamed_of_not_isSchema names rfl] at failed
      cases failed

/-! ### Names of schemas -/

/-- A letter or low line of ASCII, and behind it letters, digits and low lines. -/
def isIdentifier : Text → Bool
  | [] => false
  | first :: rest => (first.isAlpha || first == '_') && rest.all fun c => c.isAlphanum || c == '_'

private theorem isPlain_of_isAlphanum {c : Char} (letter : c.isAlphanum = true ∨ c = '_') : isPlain c = true := by
  by_contra special
  have one : (c = '?' ∨ c = '$') ∨ (c = '\'' ∨ c = '"') ∨ c = '\x60' := by
    simpa only [isPlain, isSign, Quoted.isQuote, Bool.not_eq_true, Bool.and_eq_false_iff, Bool.not_eq_false', Bool.or_eq_true,
      beq_iff_eq, decide_eq_true_eq] using special
  rcases one with (rfl | rfl) | (rfl | rfl) | rfl <;> revert letter <;> decide

private theorem not_isDigit_of_isAlpha {c : Char} (letter : c.isAlpha = true ∨ c = '_') : Text.isDigit c = false := by
  have ascii : c.toNat < 128 ∧ c.isDigit = false := by
    rcases letter with letter | rfl
    · simp [Char.isAlpha, Char.isUpper, Char.isLower, Char.isDigit, UInt32.le_iff_toNat_le] at letter ⊢
      omega
    · decide
  rw [Text.isDigit, Text.digitValue?, if_pos ascii.1, ascii.2]
  rfl

theorem isName_of_isIdentifier {name : Text} (formed : isIdentifier name = true) : Slotted.IsName name := by
  cases name with
  | nil => cases formed
  | cons first rest =>
    simp only [isIdentifier, Bool.and_eq_true, Bool.or_eq_true, beq_iff_eq, List.all_eq_true] at formed
    obtain ⟨head, others⟩ := formed
    refine ⟨List.cons_ne_nil _ _, .cons (not_isDigit_of_isAlpha head), List.forall_mem_cons.mpr ⟨?_, ?_⟩⟩
    · refine isPlain_of_isAlphanum (head.imp_left fun letter => ?_)
      simp [Char.isAlphanum, letter]
    · exact fun c member => isPlain_of_isAlphanum (others c member)

/-! ### Settled texts -/

/-- A text without schema tokens is left alone by all schemas. -/
theorem substituteSchemas_of_no_schema (schemas : List Value) {text : Text} (none : ∀ digits, .schema digits ∉ read text) :
    substituteSchemas schemas text = .ok text := by
  have token (t : Token) (member : t ∈ read text) : withSchemas schemas t = .ok (.text t.source) := by
    cases t with
    | schema digits => exact absurd member (none digits)
    | _ => rfl
  have inside : ∀ segment ∈ Quoted.segments text,
      (if segment.quoted then .ok segment.text else substituteUnquoted schemas segment.text) = .ok segment.text := by
    rintro ⟨piece, isQuoted⟩ member
    cases isQuoted with
    | true => rfl
    | false =>
      have found : (ofUnquoted piece).mapM (withSchemas schemas) = .ok ((ofUnquoted piece).map fun t => .text t.source) :=
        Outcome.mapM_eq_ok.mpr (List.forall₂_map_right_iff.mpr (List.forall₂_same.mpr fun t here =>
          token t (List.mem_flatMap.mpr ⟨_, member, here⟩)))
      have written : ((ofUnquoted piece).map fun t => Value.text t.source).mapM schemaText = .ok ((ofUnquoted piece).map source) :=
        Outcome.mapM_eq_ok.mpr (by
          rw [List.forall₂_map_left_iff, List.forall₂_map_right_iff]
          exact List.forall₂_same.mpr fun _ _ => rfl)
      have same : ((ofUnquoted piece).map source).flatten = piece := (reads_ofUnquoted piece).write_eq
      rw [if_neg (by simp), substituteUnquoted, found, Outcome.bind_ok, written, Outcome.bind_ok, same]
      rfl
  rw [substituteSchemas, Outcome.mapM_eq_ok.mpr (List.forall₂_map_right_iff.mpr (List.forall₂_same.mpr inside)), Outcome.bind_ok]
  exact congrArg Except.ok (Quoted.whole_segments text)

/-- A text without schema tokens is left alone where it stands between parentheses. -/
private theorem substituteSchemas_within {inner : Text} (none : ∀ digits, .schema digits ∉ read inner)
    (balanced : Slotted.Balanced inner) (names : List Text) {left : Text} (closed : Slotted.Balanced left) (right : Text) :
    substituteSchemas (names.map .text) (left ++ "(" ++ inner ++ ")" ++ right) = do
      let left' ← substituteSchemas (names.map .text) left
      let right' ← substituteSchemas (names.map .text) right
      return left' ++ "(" ++ inner ++ ")" ++ right' := by
  have opening (rest : Text) : SetOff ("(" ++ rest) := ⟨.cons (by decide), .cons (by decide), .cons (by decide)⟩
  have ending (rest : Text) : SetOff (")" ++ rest) := ⟨.cons (by decide), .cons (by decide), .cons (by decide)⟩
  have tokens : read (left ++ ("(" ++ (inner ++ (")" ++ right)))) =
      read left ++ (plain '(' :: (read inner ++ (plain ')' :: read right))) := by
    rw [read_append closed (opening _), read_literal "(" rfl, read_append balanced (ending _), read_literal ")" rfl]
    rfl
  have kept : (read inner).mapM (renamed names) = .ok ((read inner).map source) := by
    refine Outcome.mapM_eq_ok.mpr (List.forall₂_map_right_iff.mpr (List.forall₂_same.mpr fun token member => ?_))
    refine renamed_of_not_isSchema names ?_
    cases token with
    | schema digits => exact absurd member (none digits)
    | _ => rfl
  have same : ((read inner).map source).flatten = inner := write_read inner
  simp only [List.append_assoc]
  rw [substituteSchemas_eq, substituteSchemas_eq, substituteSchemas_eq, tokens, List.mapM_append, List.mapM_cons, List.mapM_append,
    List.mapM_cons, kept]
  cases (read left).mapM (renamed names) with
  | error error => rfl
  | ok first =>
    cases (read right).mapM (renamed names) with
    | error error => rfl
    | ok last =>
      change Except.ok (first ++ (['('] :: ((read inner).map source ++ ([')'] :: last)))).flatten =
        Except.ok (first.flatten ++ ("(" ++ (inner ++ (")" ++ last.flatten))))
      rw [List.flatten_append, List.flatten_cons, List.flatten_append, List.flatten_cons, same]
      rfl

/-- A text, and what has become of it when schemas were put in for good. -/
structure Settled (names : List Text) (text result : Text) : Prop where
  read_eq : read result = (read text).flatMap (named (names.map .text))
  regions_eq : Quoted.regions result = Quoted.regions text
  placeholders_eq : readPlaceholders result = readPlaceholders text
  markers_eq : countMarkers result = countMarkers text
  schemaless : ∀ digits, .schema digits ∉ read result
  fixed : ∀ schemas, substituteSchemas schemas result = .ok result
  /-- Where it stands between parentheses in another text, only that text gets schemas. -/
  fixedWithin : ∀ (names' : List Text) (left right : Text), Slotted.Balanced left → Slotted.Balanced text →
    substituteSchemas (names'.map .text) (left ++ "(" ++ result ++ ")" ++ right) = do
      let left' ← substituteSchemas (names'.map .text) left
      let right' ← substituteSchemas (names'.map .text) right
      return left' ++ "(" ++ result ++ ")" ++ right'

/-- Schemas whose names are identifiers are put in for good, if no schema token stands right behind a word character or a dollar sign. -/
theorem settled_of_substituteSchemas {names : List Text} (formed : ∀ name ∈ names, isIdentifier name = true) {text result : Text}
    (apart : SchemasApart (read text)) (done : substituteSchemas (names.map .text) text = .ok result) :
    Settled names text result := by
  obtain ⟨written, found⟩ := Slotted.substituteSchemas_ok done
  have isName : ∀ digits, .schema digits ∈ read text → Slotted.IsName (Slotted.withSchema (names.map .text) (.schema digits)) := by
    intro digits member
    obtain ⟨schema, given, shown⟩ := found digits member
    obtain ⟨name, inside, rfl⟩ := List.mem_map.mp given
    rw [← Except.ok.inj shown]
    exact isName_of_isIdentifier (formed name inside)
  have reading : read result = (read text).flatMap (named (names.map .text)) := by
    rw [written, ← write_named, read_named isName apart]
  have schemaless : ∀ digits, .schema digits ∉ read result := by
    rw [reading]
    exact fun digits => schema_not_mem_named digits _
  have noQuotes : Quoted.NoneIn (names.map .text) := by
    intro schema given name shown
    obtain ⟨name', inside, rfl⟩ := List.mem_map.mp given
    obtain rfl := Except.ok.inj shown
    have name := isName_of_isIdentifier (formed _ inside)
    exact ⟨name.nonempty, fun c member => not_isQuote_of_isPlain (name.ordinary c member)⟩
  have restyled := Quoted.restyled_withSchemas noQuotes done
  refine
    { read_eq := reading
      regions_eq := restyled.regions_eq
      placeholders_eq := ?_
      markers_eq := ?_
      schemaless
      fixed := fun schemas => substituteSchemas_of_no_schema schemas schemaless
      fixedWithin := fun names' left right closed balanced => ?_ }
  · rw [readPlaceholders, readPlaceholders, checkNumerals, checkNumerals, placeholders, placeholders, reading,
      filterMap_named (fun _ => rfl) (fun _ => rfl), forM_named (fun _ => rfl) (fun _ => rfl)]
  · rw [countMarkers, countMarkers, reading, countP_named]
  · exact substituteSchemas_within schemaless (restyled.balanced balanced) names' closed right

/-- Putting in schemas whose names are identifiers. Each token is read by its numeral: it fails if the numeral has too many digits or if there is no schema with its number, and the first token that fails decides. Otherwise the schemas are put in for good. -/
theorem schemas_settle (names : List Text) (formed : ∀ name ∈ names, isIdentifier name = true) (text : Text)
    (apart : SchemasApart (read text)) :
    ((∃ index shown, substituteSchemas (names.map .text) text = .error (.schemaIndex index shown)) ↔
      ∃ before digits after, read text = before ++ .schema digits :: after ∧ names.length ≤ Text.numeralValue digits ∧
        ∀ earlier, .schema earlier ∈ before ++ [.schema digits] → earlier.length ≤ Numeral.digitLimit) ∧
    ((∃ length, substituteSchemas (names.map .text) text = .error (.numeralTooLong length)) ↔
      ∃ before digits after, read text = before ++ .schema digits :: after ∧ Numeral.digitLimit < digits.length ∧
        ∀ earlier, .schema earlier ∈ before → earlier.length ≤ Numeral.digitLimit ∧ Text.numeralValue earlier < names.length) ∧
    ((∀ digits, .schema digits ∈ read text → digits.length ≤ Numeral.digitLimit ∧ Text.numeralValue digits < names.length) →
      ∃ result, substituteSchemas (names.map .text) text = .ok result ∧ Settled names text result) := by
  refine ⟨?_, ?_, ?_⟩
  · constructor
    · rintro ⟨index, shown, failed⟩
      obtain ⟨before, digits, after, pieces, here, fine⟩ := substituteSchemas_eq_error.mp failed
      rcases renamed_schema names digits with ⟨-, other⟩ | ⟨short, beyond, -⟩ | ⟨-, -, _, other⟩
      · rw [here] at other
        cases other
      · refine ⟨before, digits, after, pieces, beyond, fun earlier member => ?_⟩
        rcases List.mem_append.mp member with front | last
        · exact (fine earlier front).1
        · rw [Token.schema.inj (List.mem_singleton.mp last)]
          exact short
      · rw [here] at other
        cases other
    · rintro ⟨before, digits, after, pieces, beyond, short⟩
      have cut : read text = (before ++ [.schema digits]) ++ after := by rw [pieces, List.append_assoc, List.singleton_append]
      have wrong : ¬ (digits.length ≤ Numeral.digitLimit ∧ Text.numeralValue digits < names.length) := by omega
      obtain ⟨first, error, member, here, failed⟩ := exists_error cut ⟨digits, by simp, wrong⟩
      rcases renamed_schema names first with ⟨long, -⟩ | ⟨-, -, index, shown, other⟩ | ⟨-, -, _, other⟩
      · have within := short first member
        omega
      · rw [other] at here
        exact ⟨index, shown, failed.trans here.symm⟩
      · rw [here] at other
        cases other
  · constructor
    · rintro ⟨length, failed⟩
      obtain ⟨before, digits, after, pieces, here, fine⟩ := substituteSchemas_eq_error.mp failed
      rcases renamed_schema names digits with ⟨long, -⟩ | ⟨-, -, _, _, other⟩ | ⟨-, -, _, other⟩
      · exact ⟨before, digits, after, pieces, long, fine⟩
      · rw [here] at other
        cases other
      · rw [here] at other
        cases other
    · rintro ⟨before, digits, after, pieces, long, fine⟩
      rcases renamed_schema names digits with ⟨-, here⟩ | ⟨short, -⟩ | ⟨short, -⟩
      · exact ⟨_, substituteSchemas_eq_error.mpr ⟨before, digits, after, pieces, here, fine⟩⟩
      · omega
      · omega
  · intro fine
    cases done : substituteSchemas (names.map .text) text with
    | ok result => exact ⟨result, rfl, settled_of_substituteSchemas formed apart done⟩
    | error error =>
      obtain ⟨before, digits, after, pieces, here, -⟩ := substituteSchemas_eq_error.mp done
      have within := fine digits (by simp [pieces])
      obtain ⟨name, found⟩ : ∃ name, renamed names (.schema digits) = .ok name :=
        exists_renamed fun numeral same => by rwa [← Token.schema.inj same]
      rw [here] at found
      cases found

/-- A schema with a number, between a comparison and a placeholder. -/
theorem schemas_settle_numbered : (∀ name ∈ [("public" : Text), "s1"], isIdentifier name = true) ∧
    SchemasApart (read "x=$schema1.f($1)") ∧ Settled ["public", "s1"] "x=$schema1.f($1)" "x=s1.f($1)" := by
  have formed : ∀ name ∈ [("public" : Text), "s1"], isIdentifier name = true := by decide
  have tokens : read "x=$schema1.f($1)" =
      [.plain 'x', .plain '=', .schema "1", .plain '.', .plain 'f', .plain '(', .placeholder "1", .plain ')'] := by
    decide +kernel
  have apart : SchemasApart (read "x=$schema1.f($1)") := by
    rw [tokens]
    decide
  have written : substituteSchemas [.text "public", .text "s1"] "x=$schema1.f($1)" = .ok "x=s1.f($1)" := rfl
  obtain ⟨result, done, settled⟩ := (schemas_settle ["public", "s1"] formed "x=$schema1.f($1)" apart).2.2 fun digits member => by
    rw [tokens] at member
    obtain rfl : digits = "1" := by simpa using member
    decide
  rw [← Except.ok.inj (written.symm.trans done)] at settled
  exact ⟨formed, apart, settled⟩

/-! ### Numerals that are too long -/

private theorem read_schema {digits : Text} (all : ∀ c ∈ digits, Text.isDigit c) : read ("$schema" ++ digits) = [.schema digits] := by
  have tokens := ofUnquoted_schema all .nil .nil
  rw [List.append_nil] at tokens
  have quoteless : ∀ c ∈ ("$schema" : Text) ++ digits, Quoted.isQuote c = false :=
    List.forall_mem_append.mpr ⟨by simp [Quoted.isQuote], fun c digit => not_isQuote_of_isDigit (all c digit)⟩
  rw [read_of_no_quotes quoteless]
  exact tokens

private theorem substituteSchemas_noughts {noughts : Nat} (many : Numeral.digitLimit < noughts) (names : List Text) :
    substituteSchemas (names.map .text) ("$schema" ++ List.replicate noughts '0') = .error (.numeralTooLong noughts) := by
  have digits : ∀ c ∈ List.replicate noughts '0', Text.isDigit c := by
    intro c member
    rw [List.eq_of_mem_replicate member]
    decide
  rcases renamed_schema names (List.replicate noughts '0') with ⟨-, here⟩ | ⟨short, -⟩ | ⟨short, -⟩
  · rw [List.length_replicate] at here
    exact substituteSchemas_eq_error.mpr ⟨[], _, [], read_schema digits, here, by simp⟩
  all_goals
    rw [List.length_replicate] at short
    omega

/-- A schema token whose number is nought is refused if it is written with too many digits, though there is a schema with that number. -/
theorem schemas_refuse_long_numeral : isIdentifier "public" = true ∧
    read ("$schema" ++ List.replicate 4301 '0') = [.schema (List.replicate 4301 '0')] ∧
    Text.numeralValue (List.replicate 4301 '0') = 0 ∧
    substituteSchemas [.text "public"] ("$schema" ++ List.replicate 4301 '0') = .error (.numeralTooLong 4301) := by
  have digits : ∀ c ∈ List.replicate 4301 '0', Text.isDigit c := by
    intro c member
    rw [List.eq_of_mem_replicate member]
    decide
  have value := Text.numeralValue_noughts 4301 []
  rw [List.append_nil] at value
  exact ⟨by decide, read_schema digits, value, substituteSchemas_noughts (by decide) ["public"]⟩

end Identifier

end SqlCompose
