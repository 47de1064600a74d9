import Mathlib
import SqlCompose.Proofs.QuoteStructure

/-!
# The quote structure in six conditions

`Quoted.WellCut` says piece by piece how a text is cut at its quotes. Here the same is said of all pieces at once, in conditions that look at the whole text: what may stand between quotes, which quote characters are left outside of them, and where a quoted piece ends. A text has exactly one cut that meets them, the one that is read (`cut_iff`).
-/

namespace SqlCompose.Quoted

/-- Every quote character of a text is one half of a doubled pair. -/
inductive Paired (quote : Char) : Text → Prop
  | nil : Paired quote []
  | other {c : Char} {rest : Text} (ne : c ≠ quote) (others : Paired quote rest) : Paired quote (c :: rest)
  | pair {rest : Text} (others : Paired quote rest) : Paired quote (quote :: quote :: rest)

theorem paired_double (quote : Char) (inner : Text) : Paired quote (Text.double quote inner) := by
  induction inner with
  | nil => exact .nil
  | cons c inner ih =>
    by_cases same : c = quote
    · subst same
      rw [double_cons_self]
      exact .pair ih
    · rw [double_cons_of_ne same]
      exact .other same ih

theorem Paired.exists_double {quote : Char} {inside : Text} (paired : Paired quote inside) : ∃ inner, inside = Text.double quote inner := by
  induction paired with
  | nil => exact ⟨[], rfl⟩
  | other ne _ ih =>
    obtain ⟨inner, rfl⟩ := ih
    exact ⟨_ :: inner, (double_cons_of_ne ne inner).symm⟩
  | pair _ ih =>
    obtain ⟨inner, rfl⟩ := ih
    exact ⟨quote :: inner, (double_cons_self quote inner).symm⟩

/-- Pieces that a text can be cut into at its quotes. -/
structure Cut (text : Text) (pieces : List Segment) : Prop where
  whole : whole pieces = text
  nonempty : ∀ piece ∈ pieces, piece.quoted = false → piece.text ≠ []
  separate : ∀ before left right after, pieces = before ++ left :: right :: after → left.quoted = true ∨ right.quoted = true
  /-- A quoted piece begins and ends with the same quote character, and has it only in doubled pairs in between. -/
  formed : ∀ piece ∈ pieces, piece.quoted = true → ∃ quote inside, isQuote quote = true ∧ piece.text = quote :: (inside ++ [quote]) ∧ Paired quote inside
  /-- A quote character outside of quotes is the last of its kind in the text. -/
  last : ∀ before front quote back after, pieces = before ++ ⟨front ++ quote :: back, false⟩ :: after → isQuote quote = true →
    quote ∉ back ++ Quoted.whole after
  /-- If a quoted piece is followed by its own quote character, that is the last of its kind in the text. -/
  closed : ∀ before quote inside after rest, pieces = before ++ ⟨quote :: inside, true⟩ :: after → Quoted.whole after = quote :: rest → quote ∉ rest

variable {text : Text} {piece : Segment} {pieces : List Segment}

theorem Cut.tail (cut : Cut text (piece :: pieces)) : Cut (Quoted.whole pieces) pieces where
  whole := rfl
  nonempty other member := cut.nonempty other (List.mem_cons_of_mem piece member)
  separate before left right after shape := cut.separate (piece :: before) left right after (by rw [shape]; rfl)
  formed other member := cut.formed other (List.mem_cons_of_mem piece member)
  last before front quote back after shape := cut.last (piece :: before) front quote back after (by rw [shape]; rfl)
  closed before quote inside after rest shape := cut.closed (piece :: before) quote inside after rest (by rw [shape]; rfl)

theorem Cut.wellCut (cut : Cut text pieces) : WellCut pieces := by
  induction pieces generalizing text with
  | nil => exact .nil
  | cons piece pieces ih =>
    have others := ih cut.tail
    obtain ⟨shown, isQuoted⟩ := piece
    cases isQuoted with
    | false =>
      refine .unquoted (cut.nonempty _ List.mem_cons_self rfl) ?_ ?_ others
      · intro next member
        obtain ⟨after, shape⟩ := List.head?_eq_some_iff.mp (Option.mem_def.mp member)
        exact (cut.separate [] _ next after (by rw [shape]; rfl)).resolve_left Bool.false_ne_true
      · intro quote member isQuote
        obtain ⟨front, back, rfl, first⟩ := List.eq_append_cons_of_mem member
        have absent := cut.last [] front quote back pieces rfl isQuote
        rw [List.append_assoc, List.count_append, List.count_eq_zero.mpr first, List.cons_append, List.count_cons_self,
          List.count_eq_zero.mpr absent]
    | true =>
      obtain ⟨quote, inside, isQuote, same, paired⟩ := cut.formed _ List.mem_cons_self rfl
      obtain ⟨inner, rfl⟩ := paired.exists_double
      obtain rfl : shown = _ := same
      refine .quoted inner isQuote ?_ others
      intro head
      obtain ⟨rest, shape⟩ := List.head?_eq_some_iff.mp head
      rw [shape, List.count_cons_self, List.count_eq_zero.mpr (cut.closed [] quote _ pieces rest rfl shape)]

theorem WellCut.cut (wellCut : WellCut pieces) : Cut (Quoted.whole pieces) pieces := by
  induction wellCut with
  | nil => exact ⟨rfl, by simp, by simp, by simp, by simp, by simp⟩
  | @unquoted text pieces nonempty separate stray _ ih =>
    refine ⟨rfl, List.forall_mem_cons.mpr ⟨fun _ => nonempty, ih.nonempty⟩, ?_, List.forall_mem_cons.mpr ⟨nofun, ih.formed⟩, ?_, ?_⟩
    · rintro (_ | ⟨first, before⟩) left right after shape
      · obtain ⟨-, rfl⟩ := List.cons.inj shape
        exact .inr (separate right rfl)
      · exact ih.separate before left right after (List.cons.inj shape).2
    · rintro (_ | ⟨first, before⟩) front quote back after shape isQuote
      · obtain ⟨same, rfl⟩ := List.cons.inj shape
        obtain rfl : text = front ++ quote :: back := congrArg Segment.text same
        have once := stray quote (by simp) isQuote
        rw [List.append_assoc, List.count_append, List.cons_append, List.count_cons_self] at once
        exact List.count_eq_zero.mp (by omega)
      · exact ih.last before front quote back after (List.cons.inj shape).2 isQuote
    · rintro (_ | ⟨first, before⟩) quote inside after rest shape
      · cases congrArg Segment.quoted (List.cons.inj shape).1
      · exact ih.closed before quote inside after rest (List.cons.inj shape).2
  | @quoted quote inner pieces isQuote closed _ ih =>
    refine ⟨rfl, List.forall_mem_cons.mpr ⟨nofun, ih.nonempty⟩, ?_, List.forall_mem_cons.mpr ⟨fun _ => ?_, ih.formed⟩, ?_, ?_⟩
    · rintro (_ | ⟨first, before⟩) left right after shape
      · obtain ⟨rfl, -⟩ := List.cons.inj shape
        exact .inl rfl
      · exact ih.separate before left right after (List.cons.inj shape).2
    · exact ⟨quote, _, isQuote, rfl, paired_double quote inner⟩
    · rintro (_ | ⟨first, before⟩) front other back after shape isQuote'
      · cases congrArg Segment.quoted (List.cons.inj shape).1
      · exact ih.last before front other back after (List.cons.inj shape).2 isQuote'
    · rintro (_ | ⟨first, before⟩) other inside after rest shape follows
      · obtain ⟨same, rfl⟩ := List.cons.inj shape
        obtain ⟨rfl, -⟩ := List.cons.inj (congrArg Segment.text same)
        have once := closed (by rw [follows]; rfl)
        rw [follows, List.count_cons_self] at once
        exact List.count_eq_zero.mp (by omega)
      · exact ih.closed before other inside after rest (List.cons.inj shape).2 follows

/-- A text can be cut at its quotes in one way only, and that is how it is read. -/
theorem cut_iff (text : Text) (pieces : List Segment) : Cut text pieces ↔ pieces = segments text := by
  constructor
  · intro cut
    exact (segments_eq_iff.mpr ⟨cut.whole, cut.wellCut⟩).symm
  · rintro rfl
    have cut := (wellCut_segments text).cut
    rwa [whole_segments] at cut

end SqlCompose.Quoted
