import Mathlib
import SqlCompose.Keyword
import SqlCompose.Token

/-!
# How a condition reads

A condition is read as SQL reads it: `AND` binds tighter than `OR`, parentheses group, and a `BETWEEN` takes the next `AND` for itself. What is no connective and no group is a factor whose truth somebody else knows. `holds` gives the truth of a condition when the truth of its factors is given.

Whether a connective counts depends on what stands in front of it, so a condition is cut with a `Depth` that says how many parentheses and ranges are open. The conditions that leave nothing open can be put together, and `holds_group`, `holds_or` and `holds_and` say what is read then. The last one is where a reader and a writer may disagree: `AND` takes only the last alternative on its left and the first on its right.
-/

namespace SqlCompose

/-- A word or a sign of a condition; a bound value stands where its placeholder was. -/
inductive Lexeme where
  | opening
  | closing
  | connective (connective : Connective)
  | range
  | word (letters : Text)
  | value (content : Value)
  | other (token : Token)

/-- How many parentheses are open, and how many ranges outside all parentheses still want their `AND`. -/
structure Depth where
  parentheses : Nat := 0
  ranges : Nat := 0
  deriving DecidableEq, Repr

namespace Depth

/-- What is open behind a lexeme; a parenthesis that was not opened cannot be closed. -/
def after? : Depth → Lexeme → Option Depth
  | ⟨d, r⟩, .opening => some ⟨d + 1, r⟩
  | ⟨0, _⟩, .closing => none
  | ⟨d + 1, r⟩, .closing => some ⟨d, r⟩
  | ⟨0, r⟩, .range => some ⟨0, r + 1⟩
  | ⟨0, r⟩, .connective .and => some ⟨0, r - 1⟩
  | ⟨0, _⟩, .connective .or => some {}
  | depth, _ => some depth

/-- What is open behind several lexemes. -/
def through? (depth : Depth) (lexemes : List Lexeme) : Option Depth :=
  lexemes.foldlM after? depth

/-- Whether a lexeme is a connective that joins what stands around it. -/
def joins (connective : Connective) : Depth → Lexeme → Bool
  | ⟨0, r⟩, .connective c => c == connective && (c == .or || r == 0)
  | _, _ => false

@[simp] theorem through?_cons (depth : Depth) (lexeme : Lexeme) (rest : List Lexeme) :
    depth.through? (lexeme :: rest) = (depth.after? lexeme).bind (·.through? rest) := rfl

theorem through?_append (depth : Depth) (left right : List Lexeme) :
    depth.through? (left ++ right) = (depth.through? left).bind (·.through? right) :=
  List.foldlM_append

/-- Inside one more pair of parentheses the same parentheses are open, and all ranges outside stay as they are. -/
theorem through?_nested {depth behind : Depth} {lexemes : List Lexeme} (through : depth.through? lexemes = some behind)
    (ranges : Nat) : (Depth.mk (depth.parentheses + 1) ranges).through? lexemes = some ⟨behind.parentheses + 1, ranges⟩ := by
  induction lexemes generalizing depth with
  | nil =>
    obtain rfl := Option.some.inj through
    rfl
  | cons lexeme rest ih =>
    rw [through?_cons] at through ⊢
    obtain ⟨next, step, further⟩ := Option.bind_eq_some_iff.mp through
    have here : (Depth.mk (depth.parentheses + 1) ranges).after? lexeme = some ⟨next.parentheses + 1, ranges⟩ := by
      obtain ⟨d, r⟩ := depth
      cases lexeme with
      | connective c => cases c <;> cases d <;> cases step <;> rfl
      | _ => cases d <;> cases step <;> rfl
    rw [here]
    exact ih further

theorem joins_nested (connective : Connective) (d r : Nat) (lexeme : Lexeme) : joins connective ⟨d + 1, r⟩ lexeme = false := by
  cases lexeme <;> rfl

theorem after?_of_joins {connective : Connective} {depth : Depth} {lexeme : Lexeme}
    (separates : joins connective depth lexeme = true) : depth.after? lexeme = some {} := by
  obtain ⟨d, r⟩ := depth
  cases d with
  | succ d =>
    rw [joins_nested] at separates
    cases separates
  | zero =>
    cases lexeme with
    | connective c =>
      cases c with
      | or => rfl
      | and =>
        obtain ⟨-, none⟩ : Connective.and = connective ∧ r = 0 := by simpa [joins] using separates
        rw [none]
        rfl
    | _ => cases separates

end Depth

namespace Lexeme

/-! ### Cutting -/

/-- Two cuts put together: the last part of one and the first part of the other become one part. -/
def seam : List (List Lexeme) → List (List Lexeme) → List (List Lexeme)
  | part :: [], next :: parts => (part ++ next) :: parts
  | part :: parts, others => part :: seam parts others
  | [], others => others

/-- The parts of a condition between the places where a connective joins. -/
def cut (connective : Connective) (depth : Depth) : List Lexeme → List (List Lexeme)
  | [] => [[]]
  | lexeme :: rest =>
    let others := cut connective ((depth.after? lexeme).getD {}) rest
    if depth.joins connective lexeme then [] :: others else seam [[lexeme]] others

theorem seam_cons {part : List Lexeme} {parts others : List (List Lexeme)} (further : parts ≠ []) :
    seam (part :: parts) others = part :: seam parts others := by
  cases parts with
  | nil => exact absurd rfl further
  | cons next parts => rfl

theorem seam_ne_nil {parts others : List (List Lexeme)} (some : parts ≠ []) : seam parts others ≠ [] := by
  cases parts with
  | nil => exact absurd rfl some
  | cons part parts =>
    cases parts with
    | nil => cases others <;> simp [seam]
    | cons next parts => simp [seam]

theorem cut_ne_nil (connective : Connective) (depth : Depth) (lexemes : List Lexeme) : cut connective depth lexemes ≠ [] := by
  cases lexemes with
  | nil => simp [cut]
  | cons lexeme rest =>
    rw [cut]
    split
    · simp
    · exact seam_ne_nil (by simp)

theorem seam_assoc {first : List (List Lexeme)} (second third : List (List Lexeme)) (some : second ≠ []) :
    seam (seam first second) third = seam first (seam second third) := by
  induction first with
  | nil => rfl
  | cons part parts ih =>
    cases parts with
    | cons next parts =>
      have step : ∀ others, seam (part :: next :: parts) others = part :: seam (next :: parts) others := fun _ => rfl
      rw [step, step, seam_cons (seam_ne_nil (List.cons_ne_nil next parts)), ih]
    | nil =>
      obtain ⟨other, others, rfl⟩ := List.exists_cons_of_ne_nil some
      cases others with
      | nil =>
        cases third with
        | nil => rfl
        | cons last third => simp [seam]
      | cons next others => simp [seam]

theorem seam_nil_part (parts others : List (List Lexeme)) (some : parts ≠ []) : seam parts ([] :: others) = parts ++ others := by
  induction parts with
  | nil => exact absurd rfl some
  | cons part parts ih =>
    cases parts with
    | nil => simp [seam]
    | cons next parts =>
      rw [seam_cons (by simp), ih (by simp)]
      rfl

theorem seam_concat (parts : List (List Lexeme)) (last next : List Lexeme) (others : List (List Lexeme)) :
    seam (parts ++ [last]) (next :: others) = parts ++ (last ++ next) :: others := by
  induction parts with
  | nil => rfl
  | cons part parts ih =>
    rw [List.cons_append, seam_cons (by simp), ih]
    rfl

/-- A condition put together is cut like its two halves. -/
theorem cut_append {connective : Connective} {depth between : Depth} {left : List Lexeme}
    (through : depth.through? left = some between) (right : List Lexeme) :
    cut connective depth (left ++ right) = seam (cut connective depth left) (cut connective between right) := by
  induction left generalizing depth with
  | nil =>
    obtain rfl := Option.some.inj through
    obtain ⟨part, parts, same⟩ := List.exists_cons_of_ne_nil (cut_ne_nil connective depth right)
    rw [List.nil_append, same]
    rfl
  | cons lexeme rest ih =>
    rw [Depth.through?_cons] at through
    obtain ⟨next, step, further⟩ := Option.bind_eq_some_iff.mp through
    simp only [List.cons_append, cut, step, Option.getD_some, ih further]
    split
    · rw [seam_cons (cut_ne_nil connective next rest)]
    · rw [seam_assoc _ _ (cut_ne_nil connective next rest)]

theorem cut_nested {connective : Connective} {depth behind : Depth} {lexemes : List Lexeme}
    (through : depth.through? lexemes = some behind) (ranges : Nat) :
    cut connective ⟨depth.parentheses + 1, ranges⟩ lexemes = [lexemes] := by
  induction lexemes generalizing depth with
  | nil => rfl
  | cons lexeme rest ih =>
    have whole := Depth.through?_nested through ranges
    rw [Depth.through?_cons] at through
    obtain ⟨next, step, further⟩ := Option.bind_eq_some_iff.mp through
    have here : (Depth.mk (depth.parentheses + 1) ranges).after? lexeme = some ⟨next.parentheses + 1, ranges⟩ := by
      have one : depth.through? [lexeme] = some next := by rw [Depth.through?_cons, step]; rfl
      have nested := Depth.through?_nested one ranges
      rw [Depth.through?_cons] at nested
      obtain ⟨deeper, found, same⟩ := Option.bind_eq_some_iff.mp nested
      rw [found, ← same]
      rfl
    rw [cut, Depth.joins_nested, here, Option.getD_some, ih further]
    rfl

theorem length_le_of_mem_cut {connective : Connective} {depth : Depth} {lexemes part : List Lexeme}
    (member : part ∈ cut connective depth lexemes) : part.length ≤ lexemes.length := by
  induction lexemes generalizing depth part with
  | nil =>
    rw [List.mem_singleton.mp member]
  | cons lexeme rest ih =>
    rw [cut] at member
    split at member
    · rcases List.mem_cons.mp member with rfl | further
      · simp
      · exact Nat.le_succ_of_le (ih further)
    · obtain ⟨next, others, same⟩ := List.exists_cons_of_ne_nil
        (cut_ne_nil connective ((depth.after? lexeme).getD {}) rest)
      rw [same] at member
      rcases List.mem_cons.mp member with rfl | further
      · exact Nat.succ_le_succ (ih (same ▸ List.mem_cons_self ..))
      · exact Nat.le_succ_of_le (ih (same ▸ List.mem_cons_of_mem _ further))

/-! ### Conditions that leave nothing open -/

/-- Every parenthesis is closed and every range has its `AND`. -/
def Even (lexemes : List Lexeme) : Prop :=
  Depth.through? {} lexemes = some {}

instance (lexemes : List Lexeme) : Decidable (Even lexemes) :=
  inferInstanceAs (Decidable (_ = _))

/-- A condition in parentheses. -/
def group (lexemes : List Lexeme) : List Lexeme :=
  opening :: (lexemes ++ [closing])

/-- Two conditions with a connective between them. -/
def joined (connective : Connective) (left right : List Lexeme) : List Lexeme :=
  left ++ .connective connective :: right

theorem Even.joined {left right : List Lexeme} (first : Even left) (second : Even right) (connective : Connective) :
    Even (joined connective left right) := by
  unfold Even at first second
  rw [Even, Lexeme.joined, Depth.through?_append, first, Option.bind_some, Depth.through?_cons]
  cases connective <;> exact second

theorem Even.group {lexemes : List Lexeme} (even : Even lexemes) : Even (group lexemes) := by
  have inside := Depth.through?_nested even 0
  have opened : Depth.after? {} opening = some ⟨0 + 1, 0⟩ := rfl
  rw [Even, Lexeme.group, Depth.through?_cons, opened, Option.bind_some, Depth.through?_append, inside]
  rfl

/-- A connective between two conditions of which the first leaves nothing open cuts them apart. -/
theorem cut_joined {left : List Lexeme} (even : Even left) (connective : Connective) (right : List Lexeme) :
    cut connective {} (joined connective left right) = cut connective {} left ++ cut connective {} right := by
  have cuts : cut connective {} (.connective connective :: right) = [] :: cut connective {} right := by
    cases connective <;> rfl
  rw [joined, cut_append even, cuts, seam_nil_part _ _ (cut_ne_nil connective {} left)]

/-- `AND` between two conditions becomes part of the last alternative of the one and the first of the other. -/
theorem cut_or_joined_and {left right : List Lexeme} (even : Even left) {earlier later : List (List Lexeme)}
    {last first : List Lexeme} (front : cut .or {} left = earlier ++ [last]) (back : cut .or {} right = first :: later) :
    cut .or {} (joined .and left right) = earlier ++ joined .and last first :: later := by
  have step : cut .or {} (.connective .and :: right) = (.connective .and :: first) :: later := by
    change seam [[.connective .and]] (cut .or {} right) = _
    rw [back]
    rfl
  rw [joined, cut_append even, step, front, seam_concat]
  rfl

theorem cut_group {lexemes : List Lexeme} (even : Even lexemes) (connective : Connective) :
    cut connective {} (group lexemes) = [group lexemes] := by
  have opens : cut connective {} (group lexemes) = seam [[opening]] (cut connective ⟨0 + 1, 0⟩ (lexemes ++ [closing])) := by
    cases connective <;> rfl
  have closes : cut connective ⟨0 + 1, 0⟩ [closing] = [[closing]] := by
    cases connective <;> rfl
  rw [opens, cut_append (Depth.through?_nested even 0), cut_nested even 0, closes]
  rfl

/-- The last part of a cut leaves open what the whole does. -/
theorem through?_last {connective : Connective} {depth behind : Depth} {lexemes : List Lexeme}
    (through : depth.through? lexemes = some behind) {earlier : List (List Lexeme)} {last : List Lexeme}
    (parts : cut connective depth lexemes = earlier ++ [last]) :
    if earlier = [] then depth.through? last = some behind else Depth.through? {} last = some behind := by
  induction lexemes generalizing depth earlier last with
  | nil =>
    have same : [[]] = earlier ++ [last] := parts
    cases earlier with
    | nil =>
      rw [← List.singleton_inj.mp same]
      exact through
    | cons part earlier => simp at same
  | cons lexeme rest ih =>
    rw [Depth.through?_cons] at through
    obtain ⟨next, step, further⟩ := Option.bind_eq_some_iff.mp through
    rw [cut, step, Option.getD_some] at parts
    split at parts
    · next separates =>
      obtain rfl : next = {} := by simpa [Depth.after?_of_joins separates] using step.symm
      cases earlier with
      | nil =>
        obtain ⟨-, nothing⟩ := List.cons.inj parts
        exact absurd nothing (cut_ne_nil connective {} rest)
      | cons part earlier =>
        have there := ih further (List.cons.inj parts).2
        rw [if_neg (List.cons_ne_nil _ _)]
        by_cases alone : earlier = []
        · rwa [if_pos alone] at there
        · rwa [if_neg alone] at there
    · obtain ⟨part, others, same⟩ := List.exists_cons_of_ne_nil (cut_ne_nil connective next rest)
      rw [same] at parts
      cases earlier with
      | nil =>
        obtain ⟨rfl, rfl⟩ := List.cons.inj parts
        have there := ih further (show cut connective next rest = [] ++ [part] from same)
        rw [if_pos rfl] at there ⊢
        rw [List.singleton_append, Depth.through?_cons, step]
        exact there
      | cons other earlier =>
        obtain ⟨-, rfl⟩ := List.cons.inj parts
        have there := ih further (show cut connective next rest = (part :: earlier) ++ [last] from same)
        rwa [if_neg (List.cons_ne_nil _ _)] at there ⊢

theorem even_last {connective : Connective} {lexemes : List Lexeme} (even : Even lexemes) {earlier : List (List Lexeme)}
    {last : List Lexeme} (parts : cut connective {} lexemes = earlier ++ [last]) : Even last := by
  have there := through?_last even parts
  split at there <;> exact there

/-! ### Truth -/

/-- The condition in the parentheses, if a factor is one pair of parentheses and all that is in it. -/
def inner? : List Lexeme → Option (List Lexeme)
  | opening :: rest =>
    match rest.getLast?, Depth.through? {} rest.dropLast with
    | some closing, some ⟨0, _⟩ => some rest.dropLast
    | _, _ => none
  | _ => none

theorem inner?_group {lexemes : List Lexeme} (even : Even lexemes) : inner? (group lexemes) = some lexemes := by
  unfold Even at even
  simp [inner?, group, even]

theorem length_lt_of_inner? {factor inside : List Lexeme} (found : inner? factor = some inside) :
    inside.length < factor.length := by
  unfold inner? at found
  split at found
  · split at found
    · rw [← Option.some.inj found, List.length_dropLast, List.length_cons]
      omega
    · cases found
  · cases found

variable (truth : List Lexeme → Bool)

/-- The truth of a condition, from the truth of its factors. -/
def holds (lexemes : List Lexeme) : Bool :=
  (cut .or {} lexemes).attach.any fun ⟨run, isRun⟩ => (cut .and {} run).attach.all fun ⟨factor, isFactor⟩ =>
    match inside : inner? factor with
    | some condition =>
      have _shorter : condition.length < lexemes.length := Nat.lt_of_lt_of_le (length_lt_of_inner? inside)
        (Nat.le_trans (length_le_of_mem_cut isFactor) (length_le_of_mem_cut isRun))
      holds condition
    | none => truth factor
termination_by lexemes.length

/-- The truth of a factor: a group holds if the condition in it does. -/
def factorHolds (factor : List Lexeme) : Bool :=
  match inner? factor with
  | some condition => holds truth condition
  | none => truth factor

/-- An alternative holds if all its factors do. -/
def runHolds (run : List Lexeme) : Bool :=
  (cut .and {} run).all (factorHolds truth)

theorem holds_eq (lexemes : List Lexeme) : holds truth lexemes = (cut .or {} lexemes).any (runHolds truth) := by
  rw [holds, List.any_subtype (g := runHolds truth), List.unattach_attach]
  intro run isRun
  simp only
  rw [List.all_subtype (g := factorHolds truth), List.unattach_attach]
  · rfl
  intro factor isFactor
  simp only [factorHolds]
  split <;> simp_all

/-- Parentheses around a condition leave its truth as it is. -/
theorem holds_group {lexemes : List Lexeme} (even : Even lexemes) : holds truth (group lexemes) = holds truth lexemes := by
  rw [holds_eq, cut_group even, List.any_cons, List.any_nil, Bool.or_false, runHolds, cut_group even, List.all_cons,
    List.all_nil, Bool.and_true, factorHolds, inner?_group even]

/-- `OR` between two conditions is their disjunction, whatever they are. -/
theorem holds_or {left : List Lexeme} (even : Even left) (right : List Lexeme) :
    holds truth (joined .or left right) = (holds truth left || holds truth right) := by
  rw [holds_eq, cut_joined even, List.any_append, holds_eq, holds_eq]

theorem runHolds_and {left : List Lexeme} (even : Even left) (right : List Lexeme) :
    runHolds truth (joined .and left right) = (runHolds truth left && runHolds truth right) := by
  rw [runHolds, cut_joined even, List.all_append, runHolds, runHolds]

/-! ### What an `AND` takes -/

/-- One of the alternatives before the last holds. -/
def earlierHolds (lexemes : List Lexeme) : Bool :=
  (cut .or {} lexemes).dropLast.any (runHolds truth)

/-- The last alternative holds. -/
def lastHolds (lexemes : List Lexeme) : Bool :=
  (cut .or {} lexemes).getLast?.any (runHolds truth)

/-- The first alternative holds. -/
def firstHolds (lexemes : List Lexeme) : Bool :=
  (cut .or {} lexemes).head?.any (runHolds truth)

/-- One of the alternatives after the first holds. -/
def laterHolds (lexemes : List Lexeme) : Bool :=
  (cut .or {} lexemes).tail.any (runHolds truth)

/-- No `OR` joins parts of the condition. -/
def Unmixed (lexemes : List Lexeme) : Prop :=
  cut .or {} lexemes = [lexemes]

theorem holds_eq_earlier_or_last (lexemes : List Lexeme) :
    holds truth lexemes = (earlierHolds truth lexemes || lastHolds truth lexemes) := by
  obtain ⟨earlier, last, same⟩ := (List.eq_nil_or_concat' _).resolve_left (cut_ne_nil .or {} lexemes)
  rw [holds_eq, earlierHolds, lastHolds, same]
  simp

theorem holds_eq_first_or_later (lexemes : List Lexeme) :
    holds truth lexemes = (firstHolds truth lexemes || laterHolds truth lexemes) := by
  obtain ⟨first, later, same⟩ := List.exists_cons_of_ne_nil (cut_ne_nil .or {} lexemes)
  rw [holds_eq, firstHolds, laterHolds, same]
  simp

/-- `AND` between two conditions joins the last alternative of the one to the first of the other. -/
theorem holds_and {left : List Lexeme} (even : Even left) (right : List Lexeme) :
    holds truth (joined .and left right) =
      (earlierHolds truth left || lastHolds truth left && firstHolds truth right || laterHolds truth right) := by
  obtain ⟨earlier, last, front⟩ := (List.eq_nil_or_concat' _).resolve_left (cut_ne_nil .or {} left)
  obtain ⟨first, later, back⟩ := List.exists_cons_of_ne_nil (cut_ne_nil .or {} right)
  rw [holds_eq, cut_or_joined_and even front back, earlierHolds, lastHolds, firstHolds, laterHolds, front, back]
  simp [runHolds_and truth (even_last even front), Bool.or_assoc]

/-! ### Conditions without a joining `OR` -/

theorem unmixed_group {lexemes : List Lexeme} (even : Even lexemes) : Unmixed (group lexemes) :=
  cut_group even .or

namespace Unmixed

variable {truth} {lexemes : List Lexeme} (unmixed : Unmixed lexemes)
include unmixed

theorem earlierHolds_eq : earlierHolds truth lexemes = false := by
  rw [earlierHolds, unmixed]
  rfl

theorem lastHolds_eq : lastHolds truth lexemes = holds truth lexemes := by
  rw [holds_eq_earlier_or_last, unmixed.earlierHolds_eq, Bool.false_or]

theorem laterHolds_eq : laterHolds truth lexemes = false := by
  rw [laterHolds, unmixed]
  rfl

theorem firstHolds_eq : firstHolds truth lexemes = holds truth lexemes := by
  rw [holds_eq_first_or_later, unmixed.laterHolds_eq, Bool.or_false]

end Unmixed

/-! ### One link after another -/

theorem earlierHolds_and {left right : List Lexeme} (even : Even left) (unmixed : Unmixed right) :
    earlierHolds truth (joined .and left right) = earlierHolds truth left := by
  obtain ⟨earlier, last, front⟩ := (List.eq_nil_or_concat' _).resolve_left (cut_ne_nil .or {} left)
  rw [earlierHolds, cut_or_joined_and even front unmixed, List.dropLast_concat, earlierHolds, front, List.dropLast_concat]

theorem lastHolds_and {left right : List Lexeme} (even : Even left) (unmixed : Unmixed right) :
    lastHolds truth (joined .and left right) = (lastHolds truth left && holds truth right) := by
  obtain ⟨earlier, last, front⟩ := (List.eq_nil_or_concat' _).resolve_left (cut_ne_nil .or {} left)
  rw [← unmixed.lastHolds_eq, lastHolds, cut_or_joined_and even front unmixed, List.getLast?_concat, lastHolds, front,
    List.getLast?_concat, lastHolds, unmixed]
  exact runHolds_and truth (even_last even front) right

/-- Conditions in parentheses, one after another, behind something. -/
def linkedTo (front : List Lexeme) (links : List (Connective × List Lexeme)) : List Lexeme :=
  links.foldl (fun front link => joined link.1 front (group link.2)) front

/-- Conditions in parentheses, joined in order; the first connective is not written. -/
def linked : List (Connective × List Lexeme) → List Lexeme
  | [] => []
  | first :: rest => linkedTo (group first.2) rest

/-- Links that all say `AND` narrow the last alternative in front of them and leave the earlier ones as they are. -/
theorem holds_linkedTo_and {front : List Lexeme} (even : Even front) {conditions : List (List Lexeme)}
    (all : ∀ condition ∈ conditions, Even condition) :
    holds truth (linkedTo front (conditions.map (Connective.and, ·))) =
      (earlierHolds truth front || lastHolds truth front && conditions.all (holds truth)) := by
  induction conditions generalizing front with
  | nil => simp [linkedTo, holds_eq_earlier_or_last truth front]
  | cons condition rest ih =>
    have evenly : Even condition := all condition (by simp)
    have unmixed := unmixed_group evenly
    rw [List.map_cons, linkedTo, List.foldl_cons, ← linkedTo,
      ih (even.joined evenly.group .and) fun other member => all other (List.mem_cons_of_mem _ member),
      earlierHolds_and truth even unmixed, lastHolds_and truth even unmixed, holds_group truth evenly, List.all_cons,
      Bool.and_assoc]

end Lexeme

end SqlCompose
