import Mathlib
import SqlCompose.Proofs.CompactionMeaning
import SqlCompose.Proofs.MatchedValues
import SqlCompose.Proofs.Quotations

/-!
# Rewriting keeps the quotes

Numbering markers, unnumbering and renumbering a fragment, compaction and the schemas all write the tokens of a text one by one, each by a rule of their own. No rule touches what is quoted, and none writes a quote. So the cut of a text at its quotes, which is found by looking far ahead, can be carried over to the new text segment by segment (`Quoted.rewritten_segments`), and the five rewritings are cases of this (`Quoted.rewritings_keep_quotes`).
-/

namespace SqlCompose

namespace Token

/-- How a token is written behind so many markers. -/
abbrev Rule := Nat → Token → Text

/-- What tokens become if each is written by a rule. -/
def rewrite (rule : Rule) (before : Nat) : List Token → Text
  | [] => []
  | token :: rest => rule before token ++ rewrite rule (before + [token].countP isMarker) rest

theorem rewrite_append (rule : Rule) (before : Nat) (left right : List Token) :
    rewrite rule before (left ++ right) = rewrite rule before left ++ rewrite rule (before + left.countP isMarker) right := by
  induction left generalizing before with
  | nil => rfl
  | cons token left ih =>
    have count : (token :: left).countP isMarker = [token].countP isMarker + left.countP isMarker := @List.countP_append _ isMarker [token] left
    rw [List.cons_append, rewrite, ih, rewrite, List.append_assoc, count, Nat.add_assoc]

theorem rewrite_const (change : Token → Text) (before : Nat) (tokens : List Token) :
    rewrite (fun _ => change) before tokens = tokens.flatMap change := by
  induction tokens generalizing before with
  | nil => rfl
  | cons token rest ih => rw [rewrite, ih, List.flatMap_cons]

/-- Markers take the numbers from a start on, in order; all else stays. -/
def numberedFrom (start : Int) : Rule
  | before, marker => numbered (start + before)
  | _, token => token.source

theorem bind_eq_rewrite (start : Int) (before : Nat) (tokens : List Token) :
    Token.bind (start + before) tokens = rewrite (numberedFrom start) before tokens := by
  induction tokens generalizing before with
  | nil => rfl
  | cons token rest ih =>
    cases token with
    | marker =>
      have next : start + before + 1 = start + (before + 1 : Nat) := by omega
      rw [Token.bind, next, ih]
      rfl
    | _ => exact congrArg _ (ih before)

/-- Placeholders move so that the first number becomes a given one; if that is one, they stay as they are written. -/
def movedTo (start : Int) : Rule := fun _ token =>
  if start = 1 then token.source else shifted (start - 1) token

/-- Placeholders take other numbers; all else stays. -/
def renumberedBy (number : Nat → Nat) : Rule := fun _ token =>
  (withNumber number token).source

/-- A rule that leaves alone what means nothing to the library, and writes all else without quotes. -/
def Rule.Mild (rule : Rule) (tokens : List Token) : Prop :=
  ∀ token ∈ tokens, ∀ before, rule before token = token.source ∨ token.isCode = true ∧ Quoteless (rule before token)

namespace Rule.Mild

variable {rule : Rule} {front back tokens : List Token}

theorem of_append_left (mild : rule.Mild (front ++ back)) : rule.Mild front :=
  fun token member => mild token (List.mem_append_left back member)

theorem of_append_right (mild : rule.Mild (front ++ back)) : rule.Mild back :=
  fun token member => mild token (List.mem_append_right front member)

theorem tail {token : Token} (mild : rule.Mild (token :: tokens)) : rule.Mild tokens :=
  fun other member => mild other (List.mem_cons_of_mem token member)

theorem quoted {inside : Text} (mild : rule.Mild [Token.quoted inside]) (before : Nat) : rewrite rule before [Token.quoted inside] = inside := by
  rw [rewrite, rewrite, List.append_nil]
  exact (mild _ List.mem_cons_self before).resolve_right fun code => Bool.false_ne_true code.1

theorem sameQuotes (mild : rule.Mild tokens) (coded : Coded tokens) (before : Nat) :
    Quoted.SameQuotes (write tokens) (rewrite rule before tokens) := by
  induction tokens generalizing before with
  | nil => exact .refl []
  | cons token rest ih =>
    rw [write_cons, rewrite]
    refine .append ?_ (ih mild.tail coded.tail _)
    rcases mild token List.mem_cons_self before with same | ⟨code, quoteless⟩
    · rw [same]
      exact .refl _
    · exact (coded token List.mem_cons_self code).sameQuotes quoteless

end Rule.Mild

end Token

namespace Quoted

open Token

/-- Segments whose tokens are written by a rule behind so many markers: what is quoted stays. -/
inductive Rewritten (rule : Rule) : Nat → List Segment → List Segment → Prop
  | nil (before : Nat) : Rewritten rule before [] []
  | quoted (text : Text) {before : Nat} {rest rest' : List Segment} (others : Rewritten rule before rest rest') :
      Rewritten rule before (⟨text, true⟩ :: rest) (⟨text, true⟩ :: rest')
  | unquoted (text : Text) {before : Nat} {rest rest' : List Segment}
      (others : Rewritten rule (before + (ofUnquoted text).countP isMarker) rest rest') :
      Rewritten rule before (⟨text, false⟩ :: rest) (⟨rewrite rule before (ofUnquoted text), false⟩ :: rest')

variable {rule : Rule}

private theorem coded_ofSegment {text : Text} {segment : Segment} (member : segment ∈ segments text) : Coded (ofSegment segment) :=
  fun token inside => coded_read text token (List.mem_flatMap.mpr ⟨segment, member, inside⟩)

private theorem exists_rewritten {text : Text} {pieces : List Segment} (of : ∀ piece ∈ pieces, piece ∈ segments text)
    (mild : rule.Mild (pieces.flatMap ofSegment)) (before : Nat) :
    ∃ pieces', Rewritten rule before pieces pieces' ∧ whole pieces' = rewrite rule before (pieces.flatMap ofSegment) ∧
      List.Forall₂ Recut pieces pieces' := by
  induction pieces generalizing before with
  | nil => exact ⟨[], .nil before, rfl, .nil⟩
  | cons piece pieces ih =>
    obtain ⟨here, there⟩ := List.forall_mem_cons.mp of
    rw [List.flatMap_cons] at mild ⊢
    obtain ⟨pieces', rewritten, written, recut⟩ := ih there mild.of_append_right (before + (ofSegment piece).countP isMarker)
    obtain ⟨inside, isQuoted⟩ := piece
    cases isQuoted with
    | true =>
      obtain ⟨quote, inner, rfl⟩ := exists_of_quoted_mem here
      refine ⟨_, .quoted _ rewritten, ?_, .cons (.quoted quote (.refl inner)) recut⟩
      rw [whole_cons, written, rewrite_append]
      exact congrArg (· ++ _) (mild.of_append_left.quoted before).symm
    | false =>
      have same := mild.of_append_left.sameQuotes (coded_ofSegment here) before
      rw [write_ofSegment] at same
      refine ⟨_, .unquoted inside rewritten, ?_, .cons (.unquoted same) recut⟩
      rw [whole_cons, written, rewrite_append]
      rfl

/-- A text that is rewritten by a mild rule is cut at its quotes as it was before. -/
theorem rewritten_segments {text : Text} (mild : rule.Mild (read text)) :
    Rewritten rule 0 (segments text) (segments (rewrite rule 0 (read text))) := by
  obtain ⟨pieces', rewritten, written, recut⟩ := exists_rewritten (fun _ member => member) mild 0
  rw [read_eq, ← written, segments_recut recut]
  exact rewritten

/-! ### The rules of the library -/

theorem mild_numberedFrom (start : Int) (tokens : List Token) : (numberedFrom start).Mild tokens := by
  intro token _ before
  cases token with
  | marker => exact .inr ⟨rfl, .numbered _⟩
  | _ => exact .inl rfl

theorem mild_unnumbered (tokens : List Token) : Rule.Mild (fun _ => unnumbered) tokens := by
  intro token _ _
  cases token with
  | placeholder digits => exact .inr ⟨rfl, .cons (by decide) (by simp)⟩
  | _ => exact .inl rfl

theorem mild_movedTo (start : Int) (tokens : List Token) : (movedTo start).Mild tokens := by
  intro token _ _
  unfold movedTo
  split
  · exact .inl rfl
  · cases token with
    | placeholder digits => exact .inr ⟨rfl, .numbered _⟩
    | _ => exact .inl rfl

theorem mild_renumberedBy (number : Nat → Nat) (tokens : List Token) : (renumberedBy number).Mild tokens := by
  intro token _ _
  cases token with
  | placeholder digits => exact .inr ⟨rfl, .numbered (number (Text.numeralValue digits) : Nat)⟩
  | _ => exact .inl rfl

theorem rewritten_shiftedText (fragment : Fragment) (start : Int) :
    Rewritten (movedTo start) 0 (segments fragment.text.content) (segments (fragment.shiftedText start).content) := by
  have written : (fragment.shiftedText start).content = rewrite (movedTo start) 0 (read fragment.text.content) := by
    unfold movedTo Fragment.shiftedText
    rw [rewrite_const]
    split
    · exact (write_read _).symm
    · rfl
  rw [written]
  exact rewritten_segments (mild_movedTo start _)

theorem rewritten_withSchemas {schemas : List Value} (none : NoneIn schemas) {text out : Text}
    (done : Identifier.substituteSchemas schemas text = .ok out) :
    Rewritten (fun _ => Slotted.withSchema schemas) 0 (segments text) (segments out) := by
  obtain ⟨rfl, named⟩ := Slotted.substituteSchemas_ok done
  rw [← rewrite_const _ 0]
  refine rewritten_segments fun token member _ => ?_
  cases token with
  | schema digits =>
    obtain ⟨schema, given, shown⟩ := named digits member
    exact .inr ⟨rfl, none schema given _ shown⟩
  | _ => exact .inl rfl

/-- Whenever a text is numbered, unnumbered, renumbered, compacted or given its schemas, the new text is cut at its quotes as the old one: as many segments, quoted in the same places, those that are quoted unchanged, and in the others the tokens rewritten by the rule of the operation. -/
theorem rewritings_keep_quotes (fragment : Fragment) :
    (∀ start text next, bindMarkers fragment.text.content start = .ok (text, next) →
      Rewritten (numberedFrom start) 0 (segments fragment.text.content) (segments text)) ∧
    (∀ text, fragment.unbind = .ok text →
      Rewritten (fun _ => unnumbered) 0 (segments fragment.text.content) (segments text)) ∧
    (∀ start moved, fragment.renumber start = .ok moved →
      Rewritten (movedTo start) 0 (segments fragment.text.content) (segments moved.text.content)) ∧
    (∀ sameness compacted, fragment.compact sameness = .ok compacted →
      ∃ number, Rewritten (renumberedBy number) 0 (segments fragment.text.content) (segments compacted.text.content)) ∧
    ∀ schemas text, NoneIn schemas → Identifier.substituteSchemas schemas fragment.text.content = .ok text →
      Rewritten (fun _ => Slotted.withSchema schemas) 0 (segments fragment.text.content) (segments text) := by
  refine ⟨fun start text next done => ?_, fun text done => ?_, fun start moved done => ?_, fun sameness compacted done => ?_, fun schemas text none done => ?_⟩
  · obtain ⟨-, same⟩ := bindMarkers_eq_ok.mp done
    have written : text = rewrite (numberedFrom start) 0 (read fragment.text.content) := by
      rw [← bind_eq_rewrite, Nat.cast_zero, Int.add_zero]
      exact (congrArg Prod.fst same).symm
    rw [written]
    exact rewritten_segments (mild_numberedFrom start _)
  · obtain ⟨indices, -, further⟩ := Outcome.bind_eq_ok.mp done
    split at further
    · obtain rfl := Except.ok.inj further
      rw [← rewrite_const _ 0]
      exact rewritten_segments (mild_unnumbered _)
    · cases further
  · obtain ⟨-, -, rfl⟩ := Fragment.renumber_eq_ok.mp done
    exact rewritten_shiftedText fragment start
  · obtain ⟨indices, -, further⟩ := Outcome.bind_eq_ok.mp done
    obtain ⟨state, -, same⟩ := Outcome.bind_eq_ok.mp further
    obtain rfl := Except.ok.inj same
    refine ⟨state.number, ?_⟩
    rw [Compaction.flatMap_renamed, withNumbers, write, List.flatMap_map, ← rewrite_const _ 0]
    exact rewritten_segments (mild_renumberedBy state.number _)
  · exact rewritten_withSchemas none done

/-- A placeholder in a quoted text, and a quote that is never closed. -/
def straying : Fragment :=
  ⟨.plain "$schema.t '$9''' a = $1, $2 ' b", [.int 5, .int 5]⟩

private theorem exists_ok {α : Type} {outcome : Except Error α} (text : α → Text) {shown : Text}
    (run : (outcome.map text).toOption = some shown) : ∃ result, outcome = .ok result ∧ text result = shown := by
  cases outcome with
  | error _ => cases run
  | ok result => exact ⟨result, rfl, Option.some.inj run⟩

theorem rewritings_keep_quotes_stray_quote :
    (straying.unbind = .ok "$schema.t '$9''' a = ?, ? ' b" ∧
      Rewritten (fun _ => unnumbered) 0 (segments straying.text.content) (segments "$schema.t '$9''' a = ?, ? ' b")) ∧
    (∃ moved, straying.renumber 4 = .ok moved ∧ moved.text.content = "$schema.t '$9''' a = $4, $5 ' b" ∧
      Rewritten (movedTo 4) 0 (segments straying.text.content) (segments moved.text.content)) ∧
    (∃ compacted, straying.compact .shallow = .ok compacted ∧ compacted.text.content = "$schema.t '$9''' a = $1, $1 ' b" ∧
      ∃ number, Rewritten (renumberedBy number) 0 (segments straying.text.content) (segments compacted.text.content)) ∧
    NoneIn [.text "s"] ∧ Identifier.substituteSchemas [.text "s"] straying.text.content = .ok "s.t '$9''' a = $1, $2 ' b" ∧
      Rewritten (fun _ => Slotted.withSchema [.text "s"]) 0 (segments straying.text.content) (segments "s.t '$9''' a = $1, $2 ' b") := by
  have none : NoneIn [.text "s"] := by
    intro schema member name shown
    obtain rfl := List.mem_singleton.mp member
    obtain rfl : "s" = name := Except.ok.inj shown
    exact .cons (by decide) (List.forall_mem_nil _)
  have unbound : straying.unbind = .ok "$schema.t '$9''' a = ?, ? ' b" := by
    obtain ⟨text, run, same⟩ : ∃ text, straying.unbind = .ok text ∧ id text = "$schema.t '$9''' a = ?, ? ' b" := exists_ok id (by decide +kernel)
    exact same ▸ run
  have named : Identifier.substituteSchemas [.text "s"] straying.text.content = .ok "s.t '$9''' a = $1, $2 ' b" := by
    obtain ⟨text, run, same⟩ : ∃ text, Identifier.substituteSchemas [.text "s"] straying.text.content = .ok text ∧ id text = "s.t '$9''' a = $1, $2 ' b" :=
      exists_ok id (by decide +kernel)
    exact same ▸ run
  obtain ⟨moved, renumbered, written⟩ : ∃ moved, straying.renumber 4 = .ok moved ∧ moved.text.content = "$schema.t '$9''' a = $4, $5 ' b" :=
    exists_ok (fun moved : Numbered Wording => moved.text.content) (by decide +kernel)
  obtain ⟨compacted, compaction, written'⟩ : ∃ compacted, straying.compact .shallow = .ok compacted ∧
      compacted.text.content = "$schema.t '$9''' a = $1, $1 ' b" := exists_ok (fun compacted : Fragment => compacted.text.content) (by decide +kernel)
  obtain ⟨-, unbinding, moving, compacting, naming⟩ := rewritings_keep_quotes straying
  exact ⟨⟨unbound, unbinding _ unbound⟩, ⟨moved, renumbered, written, moving 4 _ renumbered⟩,
    ⟨compacted, compaction, written', compacting .shallow _ compaction⟩, none, named, naming _ _ none named⟩

end Quoted

end SqlCompose
