import Mathlib
import SqlCompose.Proofs.Slots

/-!
# Texts side by side

Two texts that stand side by side are read like the two of them, one after the other, if the second closes no quote that the first leaves open and begins with something apart: a character that is no quote and continues neither a word nor a numeral (`Token.read_append_of_unclosed`). Blanks and parentheses are such characters, so a condition that is set between them is read as it is read alone.
-/

namespace SqlCompose

namespace Token

/-! ### Unquoted text -/

/-- What begins here neither continues a word or a numeral nor is a quote. -/
structure SetOff (text : Text) : Prop where
  word : text.BeginsOutside Text.isWord
  digit : text.BeginsOutside Text.isDigit
  quote : text.BeginsOutside Quoted.isQuote

/-- A run of one kind of character does not reach into a text that begins with another kind. -/
theorem exists_behind {kind : Char → Bool} {text rest run tail : Text} (pieces : text ++ rest = run ++ tail)
    (all : ∀ c ∈ run, kind c = true) (outside : rest.BeginsOutside kind) :
    ∃ behind, text = run ++ behind ∧ tail = behind ++ rest := by
  rcases List.append_eq_append_iff.mp pieces with ⟨more, rfl, rfl⟩ | ⟨behind, rfl, rfl⟩
  · cases more with
    | nil => exact ⟨[], by simp⟩
    | cons c more =>
      have inside := all c (by simp)
      rw [outside c (by simp)] at inside
      cases inside
  · exact ⟨behind, rfl, rfl⟩

theorem isWord_schema : ∀ c ∈ ("schema" : Text), Text.isWord c = true := by
  have all : ("schema" : Text).all Text.isWord = true := by decide
  exact List.all_eq_true.mp all

theorem afterDollar?_append {text rest : Text} (nothing : afterDollar? text = none) (apart : SetOff rest) :
    afterDollar? (text ++ rest) = none := by
  by_contra something
  obtain ⟨⟨token, taken⟩, found⟩ := Option.ne_none_iff_exists'.mp something
  rcases afterDollar?_eq_some found with ⟨digits, tail, -, pieces, -, some, all, stop⟩ |
    ⟨digits, tail, -, pieces, -, all, stop, word⟩
  · obtain ⟨behind, rfl, rfl⟩ := exists_behind pieces all apart.digit
    rw [afterDollar?_placeholder some all stop.of_append] at nothing
    cases nothing
  · have letters : ∀ c ∈ ("schema" : Text) ++ digits, (Text.isWord c || Text.isDigit c) = true := by
      intro c member
      rcases List.mem_append.mp member with letter | digit
      · rw [isWord_schema c letter, Bool.true_or]
      · rw [all c digit, Bool.or_true]
    have outside : rest.BeginsOutside fun c => Text.isWord c || Text.isDigit c := by
      intro c head
      simp [apart.word c head, apart.digit c head]
    rw [← List.append_assoc] at pieces
    obtain ⟨behind, rfl, rfl⟩ := exists_behind pieces letters outside
    rw [List.append_assoc, afterDollar?_schema all stop.of_append word.of_append] at nothing
    cases nothing

/-- The tokens of an unquoted text do not change when something apart follows. -/
theorem ofUnquoted_append {rest : Text} (apart : SetOff rest) (text : Text) :
    ofUnquoted (text ++ rest) = ofUnquoted text ++ ofUnquoted rest := by
  refine Reads.ofUnquoted_eq ?_
  have behind := reads_ofUnquoted rest
  have reads := reads_ofUnquoted text
  generalize ofUnquoted text = tokens at reads ⊢
  induction reads with
  | nil => exact behind
  | marker _ ih => exact .marker ih
  | placeholder some all stop _ ih =>
    rw [List.cons_append, List.append_assoc]
    exact .placeholder some all (stop.append apart.digit) ih
  | schema all stop word _ ih =>
    rw [List.cons_append, List.append_assoc, List.append_assoc]
    exact .schema all (stop.append apart.digit) (word.append apart.word) ih
  | dollar nothing _ ih => exact .dollar (afterDollar?_append nothing apart) ih
  | plain ordinary _ ih => exact .plain ordinary ih

end Token

namespace Quoted

/-! ### Segments -/

/-- Two cuts put together; unquoted text on both sides of the seam becomes one segment. -/
def seam : List Segment → List Segment → List Segment
  | ⟨text, false⟩ :: [], ⟨text', false⟩ :: rest => ⟨text ++ text', false⟩ :: rest
  | segment :: rest, others => segment :: seam rest others
  | [], others => others

theorem seam_quoted (text : Text) (rest others : List Segment) :
    seam (⟨text, true⟩ :: rest) others = ⟨text, true⟩ :: seam rest others := by
  cases rest <;> rfl

theorem seam_nil (others : List Segment) : seam [] others = others := by
  cases others <;> rfl

theorem whole_seam (left right : List Segment) : whole (seam left right) = whole left ++ whole right := by
  fun_induction seam left right <;> simp_all

/-- No quote is left open. -/
def Shut (pieces : List Segment) : Prop :=
  ∀ segment ∈ pieces, segment.quoted = false → ∀ c ∈ segment.text, isQuote c = false

/-- No quote that is left open is closed by a text further on. -/
def Unclosed (pieces : List Segment) (rest : Text) : Prop :=
  ∀ segment ∈ pieces, segment.quoted = false → ∀ c ∈ segment.text, isQuote c = true → c ∉ rest

theorem Shut.unclosed {pieces : List Segment} (shut : Shut pieces) (rest : Text) : Unclosed pieces rest := by
  intro segment member unquoted c inside quote
  rw [shut segment member unquoted c inside] at quote
  cases quote

theorem Unclosed.tail {segment : Segment} {pieces : List Segment} {rest : Text} (unclosed : Unclosed (segment :: pieces) rest) :
    Unclosed pieces rest := fun other member => unclosed other (List.mem_cons_of_mem _ member)

theorem Closed.append {quote : Char} {pieces : List Segment} {rest : Text} (closed : Closed quote (whole pieces))
    (isQuote : isQuote quote = true) (wellCut : WellCut pieces) (unclosed : Unclosed pieces rest)
    (apart : rest.BeginsOutside Quoted.isQuote) : Closed quote (whole pieces ++ rest) := by
  intro head
  cases wellCut with
  | nil =>
    have other := apart quote head
    rw [isQuote] at other
    cases other
  | @unquoted text _ nonempty _ _ _ =>
    obtain ⟨c, tail, rfl⟩ := List.exists_cons_of_ne_nil nonempty
    obtain rfl : c = quote := Option.some.inj head
    have absent := unclosed ⟨c :: tail, false⟩ (by simp) rfl c (by simp) isQuote
    rw [List.count_append, closed rfl, List.count_eq_zero.mpr absent]
  | @quoted first inner rest' _ _ _ =>
    obtain rfl : first = quote := Option.some.inj head
    have once := closed rfl
    simp at once

theorem WellCut.seam {left right : List Segment} (first : WellCut left) (unclosed : Unclosed left (whole right))
    (second : WellCut right) (apart : (whole right).BeginsOutside Quoted.isQuote) : WellCut (seam left right) := by
  induction first with
  | nil => exact second
  | @unquoted text rest nonempty separate stray others ih =>
    have absent : ∀ quote ∈ text, isQuote quote → (whole right).count quote = 0 := fun quote member isQuote =>
      List.count_eq_zero.mpr (unclosed ⟨text, false⟩ (by simp) rfl quote member isQuote)
    have still : Stray text (whole rest ++ whole right) := by
      intro quote member isQuote
      rw [← List.append_assoc, List.count_append, stray quote member isQuote, absent quote member isQuote]
    cases rest with
    | cons next rest =>
      rw [← whole_seam] at still
      refine .unquoted nonempty ?_ still (ih unclosed.tail)
      obtain ⟨inside, isQuoted⟩ := next
      obtain rfl : isQuoted = true := separate _ rfl
      rw [seam_quoted]
      exact separate
    | nil =>
      cases second with
      | nil => exact .unquoted nonempty (by simp [Quoted.seam]) still .nil
      | @unquoted text' rest' nonempty' separate' stray' others' =>
        refine .unquoted (by simp [nonempty]) separate' ?_ others'
        intro quote member isQuote
        by_cases before : quote ∈ text
        · have once := still quote before isQuote
          rwa [whole_nil, List.nil_append, whole_cons, ← List.append_assoc] at once
        · have inText : quote ∈ text' := (List.mem_append.mp member).resolve_left before
          rw [List.append_assoc, List.count_append, List.count_eq_zero.mpr before, Nat.zero_add]
          exact stray' quote inText isQuote
      | @quoted quote inner rest' isQuote closed others' =>
        exact .unquoted nonempty (by simp [seam_nil]) (by simpa [seam_nil] using still) (.quoted inner isQuote closed others')
  | @quoted quote inner rest isQuote closed others ih =>
    refine .quoted inner isQuote ?_ (ih unclosed.tail)
    rw [whole_seam]
    exact closed.append isQuote others unclosed.tail apart

theorem segments_append_of_unclosed {left right : Text} (unclosed : Unclosed (segments left) right)
    (apart : right.BeginsOutside isQuote) : segments (left ++ right) = seam (segments left) (segments right) := by
  rw [← whole_segments right] at unclosed apart
  refine segments_eq_iff.mpr ⟨?_, (wellCut_segments left).seam unclosed (wellCut_segments right) apart⟩
  rw [whole_seam, whole_segments, whole_segments]

end Quoted

namespace Token

/-! ### Whole texts -/

private theorem flatMap_seam {left right : List Segment} (apart : SetOff (Quoted.whole right)) :
    (Quoted.seam left right).flatMap ofSegment = left.flatMap ofSegment ++ right.flatMap ofSegment := by
  fun_induction Quoted.seam left right with
  | case1 text text' rest =>
    have begins : SetOff text' := by
      rw [Quoted.whole_cons] at apart
      exact ⟨apart.word.of_append, apart.digit.of_append, apart.quote.of_append⟩
    have merged := ofUnquoted_append begins text
    simp [ofSegment, merged]
  | case2 segment rest others _ ih => simp [ih apart]
  | case3 => simp

/-- A text that begins with something apart, and closes no quote that was left open before it, is read on its own. -/
theorem read_append_of_unclosed {left right : Text} (unclosed : Quoted.Unclosed (Quoted.segments left) right) (apart : SetOff right) :
    read (left ++ right) = read left ++ read right := by
  rw [read_eq, Quoted.segments_append_of_unclosed unclosed apart.quote, flatMap_seam (by rwa [Quoted.whole_segments]), read_eq,
    read_eq]

/-- Behind closed quotes, a text that begins with something apart is read on its own. -/
theorem read_append {left right : Text} (balanced : Slotted.Balanced left) (apart : SetOff right) :
    read (left ++ right) = read left ++ read right :=
  read_append_of_unclosed (Quoted.Shut.unclosed balanced right) apart

theorem read_literal (run : Text) (ordinary : run.all isPlain = true) (rest : Text) :
    read (run ++ rest) = run.map .plain ++ read rest := by
  induction run with
  | nil => rfl
  | cons c run ih =>
    rw [List.all_cons, Bool.and_eq_true] at ordinary
    rw [List.cons_append, (Slotted.read_plain ordinary.1 _).1, ih ordinary.2]
    rfl

end Token

end SqlCompose
