import Mathlib
import SqlCompose.Proofs.Quotations
import SqlCompose.Proofs.SettledSchemas

/-!
# Padded texts

Where a text is set in, blanks are written behind its line breaks, and where a name is put in brackets, its closing brackets are written twice. Both put plain characters behind characters that belong to no word. Such a change does not reach into tokens: the tokens of the padded text are those of the text, but for the characters that were put in (`Token.read_flatMap`).
-/

namespace SqlCompose

namespace Token

/-- Plain characters may be put behind a plain character that belongs to no word. -/
def Padding (change : Char → Text) : Prop :=
  ∀ c, change c = [c] ∨ Text.isWord c = false ∧ isPlain c = true ∧
    ∃ more : Text, change c = c :: more ∧ more.all isPlain = true ∧ more.BeginsOutside Text.isDigit

/-- What a token is when its text is padded. -/
def padded (change : Char → Text) : Token → List Token
  | quoted text => [quoted (text.flatMap change)]
  | plain c => (change c).map plain
  | token => [token]

namespace Padding

variable {change : Char → Text}

theorem kept (padding : Padding change) {c : Char} (fixed : Text.isWord c = true ∨ isPlain c = false) : change c = [c] := by
  rcases padding c with same | ⟨other, ordinary, -⟩
  · exact same
  · rw [other, ordinary] at fixed
    simp at fixed

theorem word (padding : Padding change) {run : Text} (all : ∀ c ∈ run, Text.isWord c = true) : run.flatMap change = run := by
  induction run with
  | nil => rfl
  | cons c run ih =>
    rw [List.flatMap_cons, padding.kept (.inl (all c (by simp))), ih fun d member => all d (List.mem_cons_of_mem c member),
      List.singleton_append]

theorem harmless (padding : Padding change) : Slotted.Harmless change := by
  intro c
  rcases padding c with same | ⟨other, ordinary, more, shape, plainly, -⟩
  · exact .inl same
  · have outside : Text.isDigit c = false := by
      by_contra digit
      rw [Text.isWord_of_isDigit (by simpa using digit)] at other
      cases other
    refine .inr ⟨ordinary, outside, by simp [shape], by rw [shape]; exact .cons outside, ?_⟩
    rw [shape]
    exact List.forall_mem_cons.mpr ⟨ordinary, List.all_eq_true.mp plainly⟩

theorem beginsOutside (padding : Padding change) {kind : Char → Bool} {rest : Text} (outside : rest.BeginsOutside kind) :
    Text.BeginsOutside kind (rest.flatMap change) := by
  cases rest with
  | nil => exact .nil
  | cons c rest =>
    have first := outside c (by simp)
    rw [List.flatMap_cons]
    rcases padding c with same | ⟨-, -, more, shape, -⟩
    · rw [same]
      exact .cons first
    · rw [shape]
      exact .cons first

theorem afterDollar? (padding : Padding change) {rest : Text} (nothing : Token.afterDollar? rest = none) :
    Token.afterDollar? (rest.flatMap change) = none := by
  have run : (rest.takeWhile Text.isWord).flatMap change = rest.takeWhile Text.isWord :=
    padding.word fun c member => List.mem_takeWhile_imp member
  have outside : Text.BeginsOutside Text.isWord (rest.dropWhile Text.isWord) := .dropWhile rest
  have pieces : rest.takeWhile Text.isWord ++ rest.dropWhile Text.isWord = rest := List.takeWhile_append_dropWhile
  rw [← pieces, List.flatMap_append, run]
  rw [← pieces] at nothing
  cases tail : rest.dropWhile Text.isWord with
  | nil => rwa [tail] at nothing
  | cons c tail' =>
    rw [tail] at nothing outside
    have apart := outside c (by simp)
    have begins : ∃ tail'', (c :: tail').flatMap change = c :: tail'' := by
      rw [List.flatMap_cons]
      rcases padding c with same | ⟨-, -, more, shape, -⟩
      · exact ⟨_, by rw [same]; rfl⟩
      · exact ⟨_, by rw [shape]; rfl⟩
    obtain ⟨tail'', shape⟩ := begins
    rw [shape]
    exact afterDollar?_behind apart nothing tail''

end Padding

variable {change : Char → Text}

private theorem Reads.literal {run rest : Text} {tokens : List Token} (ordinary : ∀ c ∈ run, isSign c = false)
    (others : Reads rest tokens) : Reads (run ++ rest) (run.map Token.plain ++ tokens) := by
  induction run with
  | nil => exact others
  | cons c run ih => exact .plain (ordinary c (by simp)) (ih fun d member => ordinary d (List.mem_cons_of_mem c member))

private theorem Reads.padded (padding : Padding change) {text : Text} {tokens : List Token} (reads : Reads text tokens) :
    Reads (text.flatMap change) (tokens.flatMap (padded change)) := by
  have digits {run : Text} (all : ∀ c ∈ run, Text.isDigit c = true) : run.flatMap change = run :=
    padding.word fun c member => Text.isWord_of_isDigit (all c member)
  have dollar : change '$' = ['$'] := padding.kept (.inr rfl)
  induction reads with
  | nil => exact .nil
  | marker _ ih =>
    rw [List.flatMap_cons, padding.kept (.inr rfl)]
    exact .marker ih
  | placeholder some all stop _ ih =>
    rw [List.flatMap_cons, dollar, List.flatMap_append, digits all]
    exact .placeholder some all (padding.beginsOutside stop) ih
  | schema all stop apart _ ih =>
    rw [List.flatMap_cons, dollar, List.flatMap_append, List.flatMap_append, digits all, padding.word isWord_schema]
    exact .schema all (padding.beginsOutside stop) (padding.beginsOutside apart) ih
  | dollar nothing _ ih =>
    rw [List.flatMap_cons, List.flatMap_cons, Token.padded, dollar]
    exact .dollar (padding.afterDollar? nothing) ih
  | @plain c rest tokens ordinary _ ih =>
    rw [List.flatMap_cons, List.flatMap_cons, Token.padded]
    refine .literal ?_ ih
    rcases padding c with same | ⟨-, -, more, shape, plainly, -⟩
    · rw [same]
      exact List.forall_mem_singleton.mpr ordinary
    · rw [shape]
      exact List.forall_mem_cons.mpr ⟨ordinary, fun d member => not_isSign_of_isPlain (List.all_eq_true.mp plainly d member)⟩

private theorem ofSegment_restyled (padding : Padding change) (segment : Segment) :
    ofSegment (Quoted.restyled change segment) = (ofSegment segment).flatMap (padded change) := by
  obtain ⟨inside, isQuoted⟩ := segment
  cases isQuoted with
  | true => rfl
  | false => exact ((reads_ofUnquoted inside).padded padding).ofUnquoted_eq

/-- A padded text has the tokens of the text, each padded. -/
theorem read_flatMap (padding : Padding change) (text : Text) :
    read (text.flatMap change) = (read text).flatMap (padded change) := by
  rw [read_eq, Quoted.segments_flatMap padding.harmless, read_eq, List.flatMap_map, List.flatMap_assoc]
  exact List.flatMap_congr fun segment _ => ofSegment_restyled padding segment

/-- Padding puts in plain characters, and changes no token but a quoted one. -/
theorem mem_of_mem_padded {token token' : Token} (member : token' ∈ padded change token) :
    token' = token ∨ (∃ c, token' = plain c) ∨ ∃ text, token' = quoted text := by
  cases token with
  | quoted text => exact .inr (.inr ⟨_, List.mem_singleton.mp member⟩)
  | plain c =>
    obtain ⟨d, -, rfl⟩ := List.mem_map.mp member
    exact .inr (.inl ⟨d, rfl⟩)
  | _ => exact .inl (List.mem_singleton.mp member)

theorem placeholders_flatMap (padding : Padding change) (text : Text) : placeholders (text.flatMap change) = placeholders text := by
  rw [placeholders, read_flatMap padding, placeholders]
  induction read text with
  | nil => rfl
  | cons token rest ih =>
    rw [List.flatMap_cons, List.filterMap_append, ih]
    cases token with
    | plain c =>
      have none : ((change c).map plain).filterMap index? = [] := by
        rw [List.filterMap_map]
        exact List.filterMap_eq_nil_iff.mpr fun _ _ => rfl
      rw [padded, none]
      rfl
    | _ => rfl

/-! ### The two ways of padding -/

theorem padding_setIn (spaces : Nat) : Padding (Slotted.setIn spaces) := by
  intro c
  by_cases line : c = '\n'
  · subst line
    refine .inr ⟨by decide, by decide, List.replicate spaces ' ', by simp [Slotted.setIn], ?_, ?_⟩
    · refine List.all_eq_true.mpr fun d member => ?_
      rw [List.eq_of_mem_replicate member]
      decide
    · intro d head
      rw [List.eq_of_mem_replicate (List.mem_of_mem_head? head)]
      decide
  · exact .inl (by simp [Slotted.setIn, line])

theorem padding_double {bracket : Char} (ordinary : isPlain bracket = true) (apart : Text.isWord bracket = false) :
    Padding fun c => if c = bracket then [bracket, bracket] else [c] := by
  have undigital : Text.isDigit bracket = false := by
    by_contra digit
    rw [Text.isWord_of_isDigit (by simpa using digit)] at apart
    cases apart
  intro c
  by_cases same : c = bracket
  · subst same
    exact .inr ⟨apart, ordinary, [c], by simp, by simpa using ordinary, .cons undigital⟩
  · exact .inl (by simp [same])

end Token

end SqlCompose
