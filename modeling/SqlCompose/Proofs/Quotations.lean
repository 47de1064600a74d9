import Mathlib
import SqlCompose.Compaction
import SqlCompose.Proofs.Juxtaposition
import SqlCompose.Proofs.SlotRewriting

/-!
# The quoted regions of a text

Literals and quoted names are what a text has between quotes. Numbering, renumbering, compaction and the schemas rewrite tokens outside quotes, into texts that have no quotes either, so they leave the quoted regions of any text as they are, whether its quotes are balanced or not (`Token.Restyled.regions_eq`). Setting a text in writes blanks behind every line break, and behind those in quoted regions as well (`Quoted.regions_indent`). Where texts stand side by side, the regions of the whole are those of its parts if what stands in front leaves no quote open (`Quoted.regions_append`).
-/

namespace SqlCompose

open Token

namespace Quoted

/-- The text of a segment that quotes hold together. -/
def region? (segment : Segment) : Option Text :=
  if segment.quoted then some segment.text else none

/-- The quoted regions of a text, with their quotes, in order. -/
def regions (text : Text) : List Text :=
  (segments text).filterMap region?

/-! ### Texts side by side -/

theorem segments_append {left right : Text} (balanced : Slotted.Balanced left) (apart : right.BeginsOutside isQuote) :
    segments (left ++ right) = seam (segments left) (segments right) :=
  segments_append_of_unclosed (Shut.unclosed balanced right) apart

private theorem filterMap_seam (left right : List Segment) :
    (seam left right).filterMap region? = left.filterMap region? ++ right.filterMap region? := by
  fun_induction seam left right with
  | case1 text text' rest => simp [region?]
  | case2 segment rest others _ ih =>
    rw [List.filterMap_cons, List.filterMap_cons, ih]
    cases region? segment <;> rfl
  | case3 others => rfl

theorem regions_append {left right : Text} (balanced : Slotted.Balanced left) (apart : right.BeginsOutside isQuote) :
    regions (left ++ right) = regions left ++ regions right := by
  rw [regions, segments_append balanced apart, filterMap_seam, regions, regions]

private theorem shut_seam {left right : List Segment} (first : Shut left) (second : Shut right) : Shut (seam left right) := by
  fun_induction seam left right with
  | case1 text text' rest =>
    intro segment member unquoted c inside
    rcases List.mem_cons.mp member with rfl | further
    · rcases List.mem_append.mp inside with front | back
      · exact first ⟨text, false⟩ (by simp) rfl c front
      · exact second ⟨text', false⟩ (by simp) rfl c back
    · exact second segment (List.mem_cons_of_mem _ further) unquoted c inside
  | case2 segment rest others _ ih =>
    intro other member unquoted
    rcases List.mem_cons.mp member with rfl | further
    · exact first other (by simp) unquoted
    · exact ih (fun next inside => first next (List.mem_cons_of_mem _ inside)) second other further unquoted
  | case3 others => exact second

/-- Texts whose quotes are all closed, one behind the other. -/
theorem balanced_append {left right : Text} (first : Slotted.Balanced left) (second : Slotted.Balanced right)
    (apart : right.BeginsOutside isQuote) : Slotted.Balanced (left ++ right) := by
  unfold Slotted.Balanced
  rw [segments_append first apart]
  exact shut_seam first second

/-! ### Texts without quotes -/

theorem balanced_of_no_quotes {text : Text} (none : ∀ c ∈ text, isQuote c = false) : Slotted.Balanced text := by
  intro segment member _ c inside
  refine none c ?_
  rw [← whole_segments text]
  exact List.mem_flatMap_of_mem member inside

theorem beginsOutside_of_no_quotes {text : Text} (none : ∀ c ∈ text, isQuote c = false) : text.BeginsOutside isQuote :=
  fun c head => none c (List.mem_of_mem_head? head)

theorem regions_append_no_quotes {run : Text} (none : ∀ c ∈ run, isQuote c = false) (rest : Text) :
    regions (run ++ rest) = regions rest := by
  by_cases empty : run = []
  · rw [empty, List.nil_append]
  · obtain ⟨first, after, cut, alone, -⟩ := segments_append_unquoted empty none rest
    rw [regions, regions, cut, alone, outside]
    split <;> rfl

theorem balanced_append_no_quotes {run : Text} (none : ∀ c ∈ run, isQuote c = false) {rest : Text}
    (balanced : Slotted.Balanced rest) : Slotted.Balanced (run ++ rest) := by
  by_cases empty : run = []
  · rwa [empty, List.nil_append]
  · obtain ⟨first, after, cut, alone, -⟩ := segments_append_unquoted empty none rest
    intro segment member unquoted c inside
    rw [cut] at member
    have kept : ∀ segment ∈ outside first after, segment.quoted = false → ∀ c ∈ segment.text, isQuote c = false := by
      rwa [Slotted.Balanced, alone] at balanced
    rcases List.mem_cons.mp member with rfl | further
    · rcases List.mem_append.mp inside with front | back
      · exact none c front
      · refine kept ⟨first, false⟩ ?_ rfl c back
        rw [outside, if_neg (by simpa using List.ne_nil_of_mem back)]
        simp
    · refine kept segment ?_ unquoted c inside
      unfold outside
      split
      · exact further
      · exact List.mem_cons_of_mem _ further

/-- Texts whose quotes are all closed, with something without quotes between them. -/
theorem balanced_join {separator : Text} (some : separator ≠ []) (none : ∀ c ∈ separator, isQuote c = false) {texts : List Text}
    (all : ∀ text ∈ texts, Slotted.Balanced text) : Slotted.Balanced (Text.join separator texts) := by
  induction texts with
  | nil => exact balanced_of_no_quotes (List.forall_mem_nil _)
  | cons text texts ih =>
    obtain ⟨here, there⟩ := List.forall_mem_cons.mp all
    cases texts with
    | nil =>
      rw [Text.join, List.intercalate_singleton]
      exact here
    | cons next texts =>
      rw [Text.join, List.intercalate_cons_cons, List.append_assoc]
      exact balanced_append here (balanced_append_no_quotes none (ih there))
        ((beginsOutside_of_no_quotes none).append_of_ne_nil some _)

/-! ### A text set into another -/

/-- An inner text in an outer one: in front of it all quotes are closed and a character stands that is no quote, and no quote follows it. -/
def Encloses (outer inner : Text) : Prop :=
  ∃ front c back, outer = front ++ c :: (inner ++ back) ∧ Slotted.Balanced front ∧ isQuote c = false ∧ back.BeginsOutside isQuote

namespace Encloses

variable {outer middle inner : Text}

theorem regions_sublist (encloses : Encloses outer inner) (balanced : Slotted.Balanced inner) :
    (regions inner).Sublist (regions outer) := by
  obtain ⟨front, c, back, rfl, closed, other, apart⟩ := encloses
  have single : ∀ d ∈ [c], isQuote d = false := List.forall_mem_singleton.mpr other
  have whole : regions (front ++ c :: (inner ++ back)) = regions front ++ (regions inner ++ regions back) := by
    rw [regions_append closed (.cons other), ← List.singleton_append, regions_append_no_quotes single,
      regions_append balanced apart]
  rw [whole]
  exact (List.sublist_append_left _ _).trans (List.sublist_append_right _ _)

/-- What encloses a text also encloses what that encloses. -/
theorem trans (first : Encloses outer middle) (second : Encloses middle inner) : Encloses outer inner := by
  obtain ⟨front, c, back, rfl, closed, other, apart⟩ := first
  obtain ⟨front', c', back', rfl, closed', other', apart'⟩ := second
  have single : ∀ d ∈ [c], isQuote d = false := List.forall_mem_singleton.mpr other
  refine ⟨front ++ ([c] ++ front'), c', back' ++ back, by simp, ?_, other', apart'.append apart⟩
  exact balanced_append closed (balanced_append_no_quotes single closed') (.cons other)

end Encloses

/-- Segments that become others with the same quotes leave no quote open if they did not before. -/
theorem Shut.recut {pieces pieces' : List Segment} (recut : List.Forall₂ Recut pieces pieces') (shut : Shut pieces) :
    Shut pieces' := by
  induction recut with
  | nil => exact shut
  | @cons piece piece' _ _ first _ ih =>
    have others := ih fun segment member => shut segment (List.mem_cons_of_mem _ member)
    intro segment member unquoted c inside
    rcases List.mem_cons.mp member with rfl | further
    · by_contra quote
      have some := (first.sameQuotes.mem (by simpa using quote)).mpr inside
      exact quote (shut piece (by simp) (first.quoted_eq.trans unquoted) c some)
    · exact others segment further unquoted c inside

/-! ### Characters -/

private theorem sameQuotes_flatMap {change : Char → Text} (harmless : Slotted.Harmless change) (text : Text) :
    SameQuotes text (text.flatMap change) := by
  induction text with
  | nil => exact .refl []
  | cons c text ih =>
    rw [List.flatMap_cons, ← List.singleton_append]
    refine SameQuotes.append ?_ ih
    rcases harmless c with same | ⟨ordinary, -, isName⟩
    · rw [same]
      exact .refl _
    · refine .of_no_quotes (List.forall_mem_singleton.mpr (not_isQuote_of_isPlain ordinary))
        (fun d member => not_isQuote_of_isPlain (isName.ordinary d member)) ?_
      simp [isName.nonempty]

/-- A segment whose characters are changed. -/
def restyled (change : Char → Text) (segment : Segment) : Segment :=
  ⟨segment.text.flatMap change, segment.quoted⟩

private theorem recut_flatMap {change : Char → Text} (harmless : Slotted.Harmless change) {pieces : List Segment}
    (wellCut : WellCut pieces) : List.Forall₂ Recut pieces (pieces.map (restyled change)) := by
  induction wellCut with
  | nil => exact .nil
  | unquoted _ _ _ _ ih => exact .cons (.unquoted (sameQuotes_flatMap harmless _)) ih
  | @quoted quote inner rest isQuote _ _ ih =>
    refine .cons ?_ ih
    have fixed : change quote = [quote] := harmless.kept (.inl (by simp [isPlain, isQuote]))
    have shape : restyled change ⟨quote :: (Text.double quote inner ++ [quote]), true⟩ =
        ⟨quote :: (Text.double quote (inner.flatMap change) ++ [quote]), true⟩ := by
      simp [restyled, fixed, ← harmless.double isQuote]
    rw [shape]
    exact .quoted quote (sameQuotes_flatMap harmless inner)

theorem segments_flatMap {change : Char → Text} (harmless : Slotted.Harmless change) (text : Text) :
    segments (text.flatMap change) = (segments text).map (restyled change) := by
  have whole : ∀ pieces : List Segment, Quoted.whole (pieces.map (restyled change)) = (Quoted.whole pieces).flatMap change := by
    intro pieces
    induction pieces with
    | nil => rfl
    | cons piece pieces ih => rw [List.map_cons, whole_cons, whole_cons, ih, List.flatMap_append, restyled]
  have cut := segments_recut (recut_flatMap harmless (wellCut_segments text))
  rwa [whole, whole_segments] at cut

/-- A harmless change of characters changes quoted regions in the same way, and moves no quotes. -/
theorem regions_flatMap {change : Char → Text} (harmless : Slotted.Harmless change) (text : Text) :
    regions (text.flatMap change) = (regions text).map (·.flatMap change) := by
  rw [regions, segments_flatMap harmless, List.filterMap_map, regions, List.map_filterMap]
  congr 1
  funext segment
  obtain ⟨inside, isQuoted⟩ := segment
  cases isQuoted <;> rfl

theorem balanced_flatMap {change : Char → Text} (harmless : Slotted.Harmless change) {text : Text}
    (balanced : Slotted.Balanced text) : Slotted.Balanced (text.flatMap change) := by
  unfold Slotted.Balanced
  rw [segments_flatMap harmless]
  exact Shut.recut (recut_flatMap harmless (wellCut_segments text)) balanced

private theorem not_isQuote_blanks (spaces : Nat) : ∀ c ∈ List.replicate spaces ' ', isQuote c = false := by
  intro c member
  rw [List.eq_of_mem_replicate member]
  decide

/-- Setting a text in puts blanks behind the line breaks in its quoted regions. -/
theorem regions_indent (spaces : Nat) (text : Text) :
    regions (Text.indent spaces text) = (regions text).map (·.flatMap (Slotted.setIn spaces)) := by
  rw [Slotted.indent_eq, regions_append_no_quotes (not_isQuote_blanks spaces), regions_flatMap (Slotted.harmless_setIn spaces)]

theorem balanced_indent (spaces : Nat) {text : Text} (balanced : Slotted.Balanced text) :
    Slotted.Balanced (Text.indent spaces text) := by
  rw [Slotted.indent_eq]
  exact balanced_append_no_quotes (not_isQuote_blanks spaces) (balanced_flatMap (Slotted.harmless_setIn spaces) balanced)

end Quoted

/-! ### Rewritten tokens -/

namespace Token

/-- A text that tokens become: quoted tokens stay, and others stay or become texts with the same quotes. -/
inductive Restyled : List Token → Text → Prop
  | nil : Restyled [] []
  | kept (token : Token) {rest : List Token} {out : Text} (others : Restyled rest out) :
      Restyled (token :: rest) (token.source ++ out)
  | changed {token : Token} {text : Text} {rest : List Token} {out : Text} (loose : ∀ inside, token ≠ quoted inside)
      (same : Quoted.SameQuotes token.source text) (others : Restyled rest out) : Restyled (token :: rest) (text ++ out)

namespace Restyled

theorem sameQuotes {tokens : List Token} {out : Text} (restyled : Restyled tokens out) :
    Quoted.SameQuotes (write tokens) out := by
  induction restyled with
  | nil => exact .refl []
  | kept token _ ih =>
    rw [write_cons]
    exact (Quoted.SameQuotes.refl _).append ih
  | changed _ same _ ih =>
    rw [write_cons]
    exact same.append ih

theorem split {left right : List Token} {out : Text} (restyled : Restyled (left ++ right) out) :
    ∃ first second, out = first ++ second ∧ Restyled left first ∧ Restyled right second := by
  induction left generalizing out with
  | nil => exact ⟨[], out, rfl, .nil, restyled⟩
  | cons token left ih =>
    rw [List.cons_append] at restyled
    cases restyled with
    | kept _ others =>
      obtain ⟨first, second, rfl, here, there⟩ := ih others
      exact ⟨_, second, (List.append_assoc _ _ _).symm, .kept token here, there⟩
    | changed loose same others =>
      obtain ⟨first, second, rfl, here, there⟩ := ih others
      exact ⟨_, second, (List.append_assoc _ _ _).symm, .changed loose same here, there⟩

private theorem segment {segment : Segment} {out : Text} (restyled : Restyled (ofSegment segment) out)
    (formed : ∀ inside, segment = ⟨inside, true⟩ → ∃ quote inner, inside = quote :: (Text.double quote inner ++ [quote])) :
    Reworded segment ⟨out, segment.quoted⟩ ∧ Quoted.Recut segment ⟨out, segment.quoted⟩ := by
  obtain ⟨inside, isQuoted⟩ := segment
  cases isQuoted with
  | true =>
    have same : out = inside := by
      change Restyled [quoted inside] out at restyled
      cases restyled with
      | kept _ others =>
        cases others
        rw [source_quoted, List.append_nil]
      | changed loose _ _ => exact absurd rfl (loose inside)
    subst same
    obtain ⟨quote, inner, rfl⟩ := formed out rfl
    exact ⟨⟨rfl, fun _ => rfl⟩, .quoted quote (.refl inner)⟩
  | false =>
    have same := restyled.sameQuotes
    rw [write_ofSegment] at same
    exact ⟨⟨rfl, by rintro ⟨⟩⟩, .unquoted same⟩

private theorem pieces {pieces : List Segment} {out : Text} (restyled : Restyled (pieces.flatMap ofSegment) out)
    (formed : ∀ inside, ⟨inside, true⟩ ∈ pieces → ∃ quote inner, inside = quote :: (Text.double quote inner ++ [quote])) :
    ∃ pieces', Quoted.whole pieces' = out ∧ List.Forall₂ Reworded pieces pieces' ∧ List.Forall₂ Quoted.Recut pieces pieces' := by
  induction pieces generalizing out with
  | nil =>
    cases restyled
    exact ⟨[], rfl, .nil, .nil⟩
  | cons piece pieces ih =>
    rw [List.flatMap_cons] at restyled
    obtain ⟨first, second, rfl, here, there⟩ := restyled.split
    obtain ⟨reworded, recut⟩ := here.segment fun inside same => formed inside (by simp [same])
    obtain ⟨pieces', whole, rewordings, recuts⟩ := ih there fun inside member => formed inside (List.mem_cons_of_mem piece member)
    exact ⟨_ :: pieces', by rw [Quoted.whole_cons, whole], .cons reworded rewordings, .cons recut recuts⟩

private theorem filterMap_region? {pieces pieces' : List Segment} (reworded : List.Forall₂ Reworded pieces pieces') :
    pieces'.filterMap Quoted.region? = pieces.filterMap Quoted.region? := by
  induction reworded with
  | nil => rfl
  | @cons segment segment' _ _ first _ ih =>
    have same : Quoted.region? segment' = Quoted.region? segment := by
      obtain ⟨quotes, same⟩ := first
      unfold Quoted.region?
      rw [← quotes]
      split
      · next isQuoted => rw [same isQuoted]
      · rfl
    rw [List.filterMap_cons, List.filterMap_cons, same, ih]

variable {text out : Text}

private theorem segments (restyled : Restyled (read text) out) :
    List.Forall₂ Reworded (Quoted.segments text) (Quoted.segments out) ∧
      List.Forall₂ Quoted.Recut (Quoted.segments text) (Quoted.segments out) := by
  obtain ⟨pieces', rfl, reworded, recut⟩ := restyled.pieces fun inside member => Quoted.exists_of_quoted_mem member
  rw [Quoted.segments_recut recut]
  exact ⟨reworded, recut⟩

/-- Whatever the tokens outside quotes become, the quoted regions of a text stay. -/
theorem regions_eq (restyled : Restyled (read text) out) : Quoted.regions out = Quoted.regions text :=
  filterMap_region? restyled.segments.1

theorem balanced (restyled : Restyled (read text) out) (balanced : Slotted.Balanced text) : Slotted.Balanced out :=
  Quoted.Shut.recut restyled.segments.2 balanced

end Restyled

/-! ### Tokens that are rewritten -/

/-- Whether a token means something to the library. -/
def isCode : Token → Bool
  | quoted _ | plain _ => false
  | _ => true

end Token

/-- A text that is not empty and has no quotes. -/
structure Quoteless (text : Text) : Prop where
  nonempty : text ≠ []
  none : ∀ c ∈ text, Quoted.isQuote c = false

namespace Quoteless

theorem cons {c : Char} {rest : Text} (first : Quoted.isQuote c = false) (others : ∀ d ∈ rest, Quoted.isQuote d = false) :
    Quoteless (c :: rest) :=
  ⟨List.cons_ne_nil _ _, List.forall_mem_cons.mpr ⟨first, others⟩⟩

theorem sameQuotes {text text' : Text} (first : Quoteless text) (second : Quoteless text') : Quoted.SameQuotes text text' :=
  .of_no_quotes first.none second.none (by simp [first.nonempty, second.nonempty])

theorem ofInt (index : Int) : ∀ c ∈ Text.ofInt index, Quoted.isQuote c = false := by
  intro c member
  cases index with
  | ofNat n => exact not_isQuote_of_isDigit (Text.isDigit_of_mem_ofNat member)
  | negSucc n =>
    rcases List.mem_cons.mp member with rfl | digit
    · decide
    · exact not_isQuote_of_isDigit (Text.isDigit_of_mem_ofNat digit)

theorem numbered (index : Int) : Quoteless (Token.numbered index) :=
  .cons (by decide) (ofInt index)

end Quoteless

namespace Token

private theorem quoteless_ofUnquoted {text : Text} {token : Token} (member : token ∈ ofUnquoted text) (code : token.isCode = true) :
    Quoteless token.source := by
  have letters : ∀ c ∈ ("schema" : Text), Quoted.isQuote c = false := by
    have all : ("schema" : Text).all (fun c => !Quoted.isQuote c) = true := by decide
    simpa using List.all_eq_true.mp all
  have reads := reads_ofUnquoted text
  generalize ofUnquoted text = tokens at reads member
  induction reads with
  | nil => cases member
  | marker _ ih =>
    rcases List.mem_cons.mp member with rfl | further
    · exact .cons (by decide) (by simp)
    · exact ih further
  | placeholder _ all _ _ ih =>
    rcases List.mem_cons.mp member with rfl | further
    · exact .cons (by decide) fun c digit => not_isQuote_of_isDigit (all c digit)
    · exact ih further
  | schema all _ _ _ ih =>
    rcases List.mem_cons.mp member with rfl | further
    · refine .cons (by decide) (List.forall_mem_append.mpr ⟨letters, fun c digit => not_isQuote_of_isDigit (all c digit)⟩)
    · exact ih further
  | dollar _ _ ih | plain _ _ ih =>
    rcases List.mem_cons.mp member with rfl | further
    · cases code
    · exact ih further

/-- What means something to the library is written without quotes. -/
def Coded (tokens : List Token) : Prop :=
  ∀ token ∈ tokens, token.isCode = true → Quoteless token.source

theorem coded_read (text : Text) : Coded (read text) := by
  intro token member code
  obtain ⟨⟨inside, isQuoted⟩, _, here⟩ := List.mem_flatMap.mp member
  cases isQuoted with
  | true =>
    rw [List.mem_singleton.mp (show token ∈ [quoted inside] from here)] at code
    cases code
  | false => exact quoteless_ofUnquoted here code

theorem Coded.tail {token : Token} {rest : List Token} (coded : Coded (token :: rest)) : Coded rest :=
  fun other member => coded other (List.mem_cons_of_mem token member)

namespace Restyled

private theorem written {token : Token} {text : Text} (code : token.isCode = true) (here : Quoteless token.source)
    (there : Quoteless text) {rest : List Token} {out : Text} (others : Restyled rest out) :
    Restyled (token :: rest) (text ++ out) := by
  refine .changed (fun inside same => ?_) (here.sameQuotes there) others
  rw [same] at code
  cases code

theorem flatMap {tokens : List Token} (coded : Coded tokens) {change : Token → Text}
    (all : ∀ token ∈ tokens, change token = token.source ∨ token.isCode = true ∧ Quoteless (change token)) :
    Restyled tokens (tokens.flatMap change) := by
  induction tokens with
  | nil => exact .nil
  | cons token rest ih =>
    have others := ih coded.tail fun other member => all other (List.mem_cons_of_mem token member)
    rw [List.flatMap_cons]
    rcases all token (by simp) with same | ⟨code, quoteless⟩
    · rw [same]
      exact .kept token others
    · exact .written code (coded token (by simp) code) quoteless others

theorem bind {tokens : List Token} (coded : Coded tokens) (start : Int) : Restyled tokens (Token.bind start tokens) := by
  induction tokens generalizing start with
  | nil => exact .nil
  | cons token rest ih =>
    cases token with
    | marker => exact .written rfl (coded .marker (by simp) rfl) (.numbered start) (ih coded.tail (start + 1))
    | _ => exact .kept _ (ih coded.tail start)

end Restyled

end Token

/-! ### Rewritings of the library -/

namespace Quoted

theorem restyled_boundMarkers (text : Text) (start : Int) : Restyled (read text) (boundMarkers text start).1 :=
  .bind (coded_read text) start

theorem restyled_shifted (text : Text) (offset : Int) : Restyled (read text) ((read text).flatMap (Token.shifted offset)) := by
  refine .flatMap (coded_read text) fun token _ => ?_
  cases token with
  | placeholder digits => exact .inr ⟨rfl, .numbered _⟩
  | _ => exact .inl rfl

theorem restyled_renamed (numbers : List (Nat × Nat)) (text : Text) :
    Restyled (read text) ((read text).flatMap (Compaction.renamed numbers)) := by
  refine .flatMap (coded_read text) fun token _ => ?_
  cases token with
  | placeholder digits => exact .inr ⟨rfl, .numbered _⟩
  | _ => exact .inl rfl

/-- What every schema is written as is not empty and has no quotes. -/
def NoneIn (schemas : List Value) : Prop :=
  ∀ schema ∈ schemas, ∀ name, Identifier.schemaText schema = .ok name → Quoteless name

theorem restyled_withSchemas {schemas : List Value} (none : NoneIn schemas) {text out : Text}
    (done : Identifier.substituteSchemas schemas text = .ok out) : Restyled (read text) out := by
  obtain ⟨rfl, named⟩ := Slotted.substituteSchemas_ok done
  refine .flatMap (coded_read text) fun token member => ?_
  cases token with
  | schema digits =>
    obtain ⟨schema, given, shown⟩ := named digits member
    exact .inr ⟨rfl, none schema given _ shown⟩
  | _ => exact .inl rfl

theorem regions_shiftedText (fragment : Fragment) (start : Int) :
    regions (fragment.shiftedText start).content = regions fragment.text.content := by
  unfold Fragment.shiftedText
  split
  · rfl
  · exact (restyled_shifted _ _).regions_eq

theorem balanced_shiftedText {fragment : Fragment} (balanced : Slotted.Balanced fragment.text.content) (start : Int) :
    Slotted.Balanced (fragment.shiftedText start).content := by
  unfold Fragment.shiftedText
  split
  · exact balanced
  · exact (restyled_shifted _ _).balanced balanced

theorem regions_compact {sameness : Sameness} {fragment compacted : Fragment} (done : fragment.compact sameness = .ok compacted) :
    regions compacted.text.content = regions fragment.text.content := by
  obtain ⟨indices, -, further⟩ := Outcome.bind_eq_ok.mp done
  obtain ⟨state, -, same⟩ := Outcome.bind_eq_ok.mp further
  obtain rfl := Except.ok.inj same
  exact (restyled_renamed state.numbers _).regions_eq

end Quoted

end SqlCompose
