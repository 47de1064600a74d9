import Mathlib
import SqlCompose.Quoted

/-!
# The quote structure of a text

The scanner of `Quoted` goes through a text once, with a look ahead for every quote character. What it finds can be said without it: segments are well cut if every quoted one begins and ends with the same quote character and has it only in doubled pairs in between, if no quoted one could have been longer, and if a quote character in unquoted text never recurs. `segments_eq_iff` says that a text has exactly one such cut, and that the scanner finds it.

So whoever changes a text without touching its quotes need not go through the scanner again: it is enough to see that the changed segments are still well cut.
-/

namespace SqlCompose.Quoted

/-- The text that segments were cut from. -/
def whole (segments : List Segment) : Text :=
  segments.flatMap (·.text)

@[simp] theorem whole_nil : whole [] = [] := rfl

@[simp] theorem whole_cons (segment : Segment) (rest : List Segment) :
    whole (segment :: rest) = segment.text ++ whole rest := by
  simp [whole]

/-- The closing quote is no half of a doubled pair: the same character does not follow at once and then once more. -/
def Closed (quote : Char) (rest : Text) : Prop :=
  rest.head? = some quote → rest.count quote = 1

/-- A quote character in front of the rest occurs nowhere else. -/
def Stray (text rest : Text) : Prop :=
  ∀ quote ∈ text, isQuote quote → (text ++ rest).count quote = 1

/-- The segments of a text as the quotes in it demand. -/
inductive WellCut : List Segment → Prop
  | nil : WellCut []
  | unquoted {text : Text} {rest : List Segment} (nonempty : text ≠ [])
      (separate : ∀ segment ∈ rest.head?, segment.quoted = true) (stray : Stray text (whole rest))
      (others : WellCut rest) : WellCut (⟨text, false⟩ :: rest)
  | quoted {quote : Char} (inner : Text) {rest : List Segment} (isQuote : isQuote quote = true)
      (closed : Closed quote (whole rest)) (others : WellCut rest) :
      WellCut (⟨quote :: (Text.double quote inner ++ [quote]), true⟩ :: rest)

/-! ### The scanner finds a good cut -/

theorem Stray.tail {c : Char} {text rest : Text} (stray : Stray (c :: text) rest) : Stray text rest := by
  intro quote member isQuote
  have once := stray quote (List.mem_cons_of_mem c member) isQuote
  have some : 0 < (text ++ rest).count quote := List.count_pos_iff.mpr (List.mem_append_left rest member)
  rw [List.cons_append, List.count_cons] at once
  omega

theorem Stray.head_not_mem {c : Char} {text rest : Text} (stray : Stray (c :: text) rest) (quote : isQuote c) :
    c ∉ text ++ rest := by
  have once := stray c (by simp) quote
  rw [List.cons_append, List.count_cons_self] at once
  exact List.count_eq_zero.mp (by omega)

/-- What the scanner has found when it comes from outside quotes, or from inside the quotes of a character that occurs again. -/
private def Found : Option Char → Text → Text × List Segment → Prop
  | none, _, (first, rest) => Stray first (whole rest) ∧ (∀ segment ∈ rest.head?, segment.quoted = true) ∧ WellCut rest
  | some quote, text, (body, rest) =>
    quote ∈ text → (∃ inner, body = Text.double quote inner ++ [quote]) ∧ Closed quote (whole rest) ∧ WellCut rest

private theorem wellCut_outside {first : Text} {rest : List Segment} (found : Found none [] (first, rest)) :
    WellCut (outside first rest) := by
  obtain ⟨stray, separate, others⟩ := found
  unfold outside
  split
  · exact others
  · next nonempty => exact .unquoted (by simpa using nonempty) separate stray others

theorem double_cons_self (quote : Char) (inner : Text) :
    Text.double quote (quote :: inner) = quote :: quote :: Text.double quote inner := by
  simp [Text.double]

theorem double_cons_of_ne {quote c : Char} (ne : c ≠ quote) (inner : Text) :
    Text.double quote (c :: inner) = c :: Text.double quote inner := by
  simp [Text.double, ne]

private theorem whole_outside (first : Text) (rest : List Segment) : whole (outside first rest) = first ++ whole rest := by
  unfold outside
  split
  · next empty => simp [List.isEmpty_iff.mp empty]
  · simp

private theorem found_scan (state : Option Char) (text : Text) : Found state text (scan state text) := by
  fun_induction scan state text with
  | case1 state =>
    cases state with
    | none => exact ⟨by simp [Stray], by simp, .nil⟩
    | some quote => intro member; simp at member
  | case2 c rest opens body after run ih =>
    rw [run] at ih
    obtain ⟨quote, recurs⟩ : isQuote c = true ∧ c ∈ rest := by simpa using opens
    obtain ⟨⟨inner, rfl⟩, closed, others⟩ := ih recurs
    exact ⟨by simp [Stray], by simp, .quoted inner quote closed others⟩
  | case3 c rest opens text after run ih =>
    rw [run] at ih
    obtain ⟨stray, separate, others⟩ := ih
    have pieces : text ++ whole after = rest := by simpa [run, whole] using flatMap_scan none rest
    refine ⟨?_, separate, others⟩
    intro quote member isQuote
    rw [List.cons_append, List.count_cons]
    by_cases same : quote = c
    · subst same
      have absent : quote ∉ rest := by
        intro recurs
        exact opens (by simp [isQuote, recurs])
      rw [pieces, List.count_eq_zero.mpr absent]
      simp
    · have inText : quote ∈ text := by simpa [same] using member
      have other : (c == quote) = false := by simpa using fun h : c = quote => same h.symm
      rw [stray quote inText isQuote, other]
      simp
  | case4 c =>
    intro _
    exact ⟨⟨[], by simp [Text.double]⟩, by simp [Closed], .nil⟩
  | case5 quote d tail body after doubled run ih =>
    rw [run] at ih
    obtain ⟨same, recurs⟩ : d = quote ∧ quote ∈ tail := by simpa using doubled
    subst same
    intro _
    obtain ⟨⟨inner, rfl⟩, closed, others⟩ := ih recurs
    exact ⟨⟨d :: inner, by simp [double_cons_self]⟩, closed, others⟩
  | case6 quote d tail text after run doubled ih =>
    rw [run] at ih
    intro _
    have pieces : whole (outside text after) = d :: tail := by
      rw [whole_outside]
      simpa [run, whole] using flatMap_scan none (d :: tail)
    refine ⟨⟨[], by simp [Text.double]⟩, ?_, wellCut_outside ih⟩
    rw [pieces]
    intro head
    obtain rfl : d = quote := by simpa using head
    have absent : d ∉ tail := by simpa using doubled
    rw [List.count_cons_self, List.count_eq_zero.mpr absent]
  | case7 quote c rest ne body after run ih =>
    rw [run] at ih
    intro member
    have further : quote ∈ rest := by
      rcases List.mem_cons.mp member with rfl | further
      · exact absurd rfl ne
      · exact further
    obtain ⟨⟨inner, rfl⟩, closed, others⟩ := ih further
    exact ⟨⟨c :: inner, by simp [double_cons_of_ne ne]⟩, closed, others⟩

theorem wellCut_segments (text : Text) : WellCut (segments text) :=
  wellCut_outside (found_scan none text)

theorem whole_segments (text : Text) : whole (segments text) = text :=
  flatMap_segments text

theorem WellCut.exists_of_quoted_mem {pieces : List Segment} {inside : Text} (wellCut : WellCut pieces)
    (member : ⟨inside, true⟩ ∈ pieces) : ∃ quote inner, inside = quote :: (Text.double quote inner ++ [quote]) := by
  induction wellCut with
  | nil => cases member
  | unquoted _ _ _ _ ih =>
    rcases List.mem_cons.mp member with same | further
    · cases same
    · exact ih further
  | @quoted quote inner _ _ _ _ ih =>
    rcases List.mem_cons.mp member with same | further
    · exact ⟨quote, inner, congrArg Segment.text same⟩
    · exact ih further

theorem exists_of_quoted_mem {text inside : Text} (member : ⟨inside, true⟩ ∈ segments text) :
    ∃ quote inner, inside = quote :: (Text.double quote inner ++ [quote]) :=
  (wellCut_segments text).exists_of_quoted_mem member

/-! ### There is only one good cut -/

private theorem scan_unquoted {text rest : Text} (stray : Stray text rest) :
    scan none (text ++ rest) = (text ++ (scan none rest).1, (scan none rest).2) := by
  induction text with
  | nil => simp
  | cons c text ih =>
    have opens : (isQuote c && (text ++ rest).contains c) = false := by
      by_cases quote : isQuote c
      · have absent := stray.head_not_mem quote
        simp [List.mem_append.not.mp absent]
      · simp [quote]
    rw [List.cons_append, scan, opens, ih stray.tail]
    simp

private theorem scan_quoted {quote : Char} (inner : Text) {rest : Text} (closed : Closed quote rest) :
    scan (some quote) (Text.double quote inner ++ quote :: rest) = (Text.double quote inner ++ [quote], segments rest) := by
  induction inner with
  | nil =>
    cases rest with
    | nil => simp [Text.double, scan, segments, outside]
    | cons d tail =>
      have single : d = quote → quote ∉ tail := by
        intro same
        have once := closed (by simp [same])
        rw [same, List.count_cons_self] at once
        exact List.count_eq_zero.mp (by omega)
      have shut : (decide (d = quote) && tail.contains quote) = false := by simpa using single
      simp only [Text.double, List.flatMap_nil, List.nil_append, scan, shut, segments]
      simp
  | cons c inner ih =>
    by_cases same : c = quote
    · subst same
      rw [double_cons_self]
      simp only [List.cons_append]
      rw [scan]
      simp [ih]
    · rw [double_cons_of_ne same, List.cons_append, scan.eq_def]
      simp [same, ih]

theorem segments_quoted {quote : Char} (inner : Text) {rest : Text} (isQuote : isQuote quote) (closed : Closed quote rest) :
    segments (quote :: (Text.double quote inner ++ [quote]) ++ rest) =
      ⟨quote :: (Text.double quote inner ++ [quote]), true⟩ :: segments rest := by
  have tail : Text.double quote inner ++ [quote] ++ rest = Text.double quote inner ++ quote :: rest := by simp
  have recurs : (Text.double quote inner ++ quote :: rest).contains quote = true := by simp
  rw [List.cons_append, tail, segments, scan, isQuote, recurs]
  simp [scan_quoted inner closed, outside]

theorem segments_whole {pieces : List Segment} (wellCut : WellCut pieces) : segments (whole pieces) = pieces := by
  induction wellCut with
  | nil => rfl
  | @unquoted text rest nonempty separate stray _ ih =>
    have headless : (scan none (whole rest)).1 = [] ∧ (scan none (whole rest)).2 = rest := by
      simp only [segments, outside] at ih
      split at ih
      · next empty => exact ⟨List.isEmpty_iff.mp empty, ih⟩
      · rw [← ih] at separate
        simp at separate
    rw [whole_cons, segments, scan_unquoted stray, headless.1, headless.2]
    simp [outside, nonempty]
  | quoted inner isQuote closed _ ih =>
    rw [whole_cons, segments_quoted inner isQuote closed, ih]

theorem segments_eq_iff {text : Text} {pieces : List Segment} :
    segments text = pieces ↔ whole pieces = text ∧ WellCut pieces := by
  constructor
  · rintro rfl
    exact ⟨whole_segments text, wellCut_segments text⟩
  · rintro ⟨rfl, wellCut⟩
    exact segments_whole wellCut

/-- Some characters that are no quotes in front of a text join its first unquoted segment, or make one. -/
theorem segments_append_unquoted {run : Text} (nonempty : run ≠ []) (none : ∀ c ∈ run, isQuote c = false) (rest : Text) :
    ∃ first after, segments (run ++ rest) = ⟨run ++ first, false⟩ :: after ∧ segments rest = outside first after ∧
      ∃ tail, rest = first ++ tail := by
  have stray : Stray run rest := by
    intro quote member isQuote
    rw [none quote member] at isQuote
    cases isQuote
  refine ⟨(scan .none rest).1, (scan .none rest).2, ?_, rfl, _, (flatMap_scan .none rest).symm⟩
  simp [segments, scan_unquoted stray, outside, nonempty]

theorem segments_of_no_quotes {text : Text} (nonempty : text ≠ []) (none : ∀ c ∈ text, isQuote c = false) :
    segments text = [⟨text, false⟩] := by
  refine segments_eq_iff.mpr ⟨by simp, .unquoted nonempty (by simp) ?_ .nil⟩
  intro quote member isQuote
  rw [none quote member] at isQuote
  cases isQuote

/-! ### Changes that leave the quotes alone -/

/-- Two texts with the same quote characters in the same numbers; if one begins with a quote character, or is empty, so does, or is, the other. -/
structure SameQuotes (left right : Text) : Prop where
  count : ∀ quote, isQuote quote → left.count quote = right.count quote
  head : ∀ quote, isQuote quote → (left.head? = some quote ↔ right.head? = some quote)
  empty : left = [] ↔ right = []

namespace SameQuotes

theorem refl (text : Text) : SameQuotes text text :=
  ⟨fun _ _ => rfl, fun _ _ => Iff.rfl, Iff.rfl⟩

theorem append {left right left' right' : Text} (first : SameQuotes left left') (second : SameQuotes right right') :
    SameQuotes (left ++ right) (left' ++ right') := by
  refine ⟨?_, ?_, ?_⟩
  · intro quote isQuote
    rw [List.count_append, List.count_append, first.count quote isQuote, second.count quote isQuote]
  · intro quote isQuote
    by_cases none : left = []
    · rw [none, first.empty.mp none]
      exact second.head quote isQuote
    · have some : left' ≠ [] := fun h => none (first.empty.mpr h)
      rw [List.head?_append_of_ne_nil _ none, List.head?_append_of_ne_nil _ some]
      exact first.head quote isQuote
  · rw [List.append_eq_nil_iff, List.append_eq_nil_iff, first.empty, second.empty]

theorem of_no_quotes {left right : Text} (first : ∀ c ∈ left, isQuote c = false) (second : ∀ c ∈ right, isQuote c = false)
    (empty : left = [] ↔ right = []) : SameQuotes left right := by
  have absent : ∀ {text : Text}, (∀ c ∈ text, isQuote c = false) → ∀ quote, isQuote quote → quote ∉ text := by
    intro text none quote isQuote member
    rw [none quote member] at isQuote
    exact Bool.false_ne_true isQuote
  refine ⟨?_, ?_, empty⟩
  · intro quote isQuote
    rw [List.count_eq_zero.mpr (absent first quote isQuote), List.count_eq_zero.mpr (absent second quote isQuote)]
  · intro quote isQuote
    constructor <;> intro head
    · exact absurd (List.mem_of_mem_head? head) (absent first quote isQuote)
    · exact absurd (List.mem_of_mem_head? head) (absent second quote isQuote)

theorem closed {quote : Char} {left right : Text} (same : SameQuotes left right) (isQuote : isQuote quote)
    (closed : Closed quote left) : Closed quote right := by
  intro head
  rw [← same.count quote isQuote]
  exact closed ((same.head quote isQuote).mpr head)

theorem mem {quote : Char} {left right : Text} (same : SameQuotes left right) (isQuote : isQuote quote) :
    quote ∈ left ↔ quote ∈ right := by
  rw [← List.count_pos_iff, ← List.count_pos_iff, same.count quote isQuote]

theorem stray {left right left' right' : Text} (first : SameQuotes left left') (second : SameQuotes right right')
    (stray : Stray left right) : Stray left' right' := by
  intro quote member isQuote
  rw [← (first.append second).count quote isQuote]
  exact stray quote ((first.mem isQuote).mpr member) isQuote

end SameQuotes

theorem count_double (quote c : Char) (text : Text) :
    (Text.double quote text).count c = (if c = quote then 2 else 1) * text.count c := by
  induction text with
  | nil => simp [Text.double]
  | cons d text ih =>
    by_cases same : d = quote
    · subst same
      rw [double_cons_self, List.count_cons, List.count_cons, List.count_cons, ih]
      by_cases here : c = d
      · simp [here]
        omega
      · have other : (d == c) = false := by simpa using fun h : d = c => here h.symm
        simp [here, other]
    · rw [double_cons_of_ne same, List.count_cons, List.count_cons, ih]
      by_cases here : c = quote
      · subst here
        have other : (d == c) = false := by simpa using same
        simp [other]
      · simp [here]

theorem SameQuotes.double {quote : Char} {left right : Text} (same : SameQuotes left right) :
    SameQuotes (quote :: (Text.double quote left ++ [quote])) (quote :: (Text.double quote right ++ [quote])) := by
  refine ⟨?_, ?_, by simp⟩
  · intro c isQuote
    rw [List.count_cons, List.count_cons, List.count_append, List.count_append, count_double, count_double,
      same.count c isQuote]
  · intro c _
    simp

/-- A segment and what it may become: its quotes stay, and so does whether it is quoted. -/
inductive Recut : Segment → Segment → Prop
  | unquoted {text text' : Text} (same : SameQuotes text text') : Recut ⟨text, false⟩ ⟨text', false⟩
  | quoted (quote : Char) {inner inner' : Text} (same : SameQuotes inner inner') :
      Recut ⟨quote :: (Text.double quote inner ++ [quote]), true⟩ ⟨quote :: (Text.double quote inner' ++ [quote]), true⟩

theorem Recut.sameQuotes {left right : Segment} (recut : Recut left right) : SameQuotes left.text right.text := by
  cases recut with
  | unquoted same => exact same
  | quoted quote same => exact same.double

theorem Recut.quoted_eq {left right : Segment} (recut : Recut left right) : left.quoted = right.quoted := by
  cases recut <;> rfl

theorem sameQuotes_whole {pieces pieces' : List Segment} (recut : List.Forall₂ Recut pieces pieces') :
    SameQuotes (whole pieces) (whole pieces') := by
  induction recut with
  | nil => exact SameQuotes.refl _
  | cons first _ ih =>
    rw [whole_cons, whole_cons]
    exact first.sameQuotes.append ih

/-- Segments stay well cut when they become others with the same quotes. -/
theorem WellCut.recut {pieces pieces' : List Segment} (wellCut : WellCut pieces)
    (recut : List.Forall₂ Recut pieces pieces') : WellCut pieces' := by
  induction recut with
  | nil => exact .nil
  | @cons piece piece' rest rest' first others ih =>
    have same := sameQuotes_whole others
    cases first with
    | unquoted unchanged =>
      cases wellCut with
      | unquoted nonempty separate stray further =>
        refine .unquoted (fun empty => nonempty (unchanged.empty.mpr empty)) ?_ (unchanged.stray same stray) (ih further)
        cases others with
        | nil => simp
        | cons next _ =>
          intro segment member
          obtain rfl : _ = segment := by simpa using member
          rw [← next.quoted_eq]
          exact separate _ (by simp)
    | @quoted quote inner inner' _ =>
      generalize text : quote :: (Text.double quote inner ++ [quote]) = shown at wellCut
      cases wellCut with
      | quoted inner₀ isQuote closed further =>
        obtain ⟨rfl, -⟩ : quote = _ ∧ _ := by simpa using text
        exact .quoted inner' isQuote (same.closed isQuote closed) (ih further)

/-- The segments of a text whose segments were changed and whose quotes were not. -/
theorem segments_recut {text : Text} {pieces : List Segment} (recut : List.Forall₂ Recut (segments text) pieces) :
    segments (whole pieces) = pieces :=
  segments_whole ((wellCut_segments text).recut recut)

end SqlCompose.Quoted
