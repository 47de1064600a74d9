import SqlCompose.Chain
import SqlCompose.Value.Addition

/-!
# Numbering from any start

A predicate, a chain or a fragment on its own is numbered from whatever start is given. A start that is no number is good enough as long as there is nothing to number. A truth value is written as one, and counts as nought or one from there on; other numbers stay of their type.

The main statements, `bindFrom_int`, `renumberFrom_int` and `mergeAt_int`, say that from a whole number this is the numbering that statements use.
-/

namespace SqlCompose

def Token.bindFrom (start : Value) : List Token → Except Error (Text × Value)
  | [] => .ok ([], start)
  | marker :: rest => do
    let following ← start.plus 1
    let number ← start.printed
    let (text, next) ← bindFrom following rest
    return ('$' :: number ++ text, next)
  | token :: rest => do
    let (text, next) ← bindFrom start rest
    return (token.source ++ text, next)

def bindFrom (text : Text) (start : Value) : Except Error (Text × Value) :=
  Token.bindFrom start (Token.read text)

private theorem Value.printed_int (n : Int) : (Value.int n).printed = Numeral.write n := by
  simp only [printed, shown, shownScalar]

private theorem Token.bindFrom_int (start : Int) (tokens : List Token) :
    Token.bindFrom (.int start) tokens = (Numeral.check (numbersFrom start (tokens.countP isMarker))).map fun _ =>
      (Token.bind start tokens, .int (start + tokens.countP isMarker)) := by
  induction tokens generalizing start with
  | nil => simp [Token.bindFrom, Token.bind, numbersFrom, Except.map]
  | cons token rest ih =>
    cases token with
    | marker =>
      have count : (marker :: rest).countP isMarker = rest.countP isMarker + 1 := List.countP_cons_of_pos rfl
      have next : start + 1 + (rest.countP isMarker : Int) = start + ((rest.countP isMarker : Int) + 1) := by omega
      rw [count, numbersFrom, Numeral.check_cons]
      by_cases writable : Numeral.Writable start
      · cases checked : Numeral.check (numbersFrom (start + 1) (rest.countP isMarker)) <;>
          simp [Token.bindFrom, Token.bind, Value.plus, ih, Value.printed_int, Numeral.write, numbered, writable, checked,
            Bind.bind, Except.bind, Pure.pure, Except.pure, Except.map, next]
      · simp [Token.bindFrom, Value.plus, Value.printed_int, Numeral.write, writable, Bind.bind, Except.bind, Except.map]
    | _ =>
      cases checked : Numeral.check (numbersFrom start (rest.countP isMarker)) <;>
        simp [Token.bindFrom, Token.bind, ih, isMarker, checked, Bind.bind, Except.bind, Pure.pure, Except.pure, Except.map]

theorem bindFrom_int (text : Text) (start : Int) :
    bindFrom text (.int start) = (bindMarkers text start).map fun bound => (bound.1, .int bound.2) := by
  rw [bindFrom, bindMarkers, boundMarkers, Token.bindFrom_int, Token.countMarkers]
  cases Numeral.check (Token.numbersFrom start ((Token.read text).countP Token.isMarker)) <;> rfl

/-! ### Fragments -/

/-- A placeholder moves up by an offset of any type; all else stays. -/
def Token.shiftedBy (offset : Value) : Token → Except Error Text
  | placeholder digits => do return '$' :: (← (← offset.plus (Text.numeralValue digits)).printed)
  | token => .ok token.source

namespace Fragment

/-- The fragment numbered from a start: its text and the next index. The start is looked at only if the fragment is sound. -/
def renumberFrom (fragment : Fragment) (start : Value) : Except Error (Wording × Value) := do
  let sound ← fragment.renumber 1
  let offset ← start.plus (-1)
  let next ← start.plus sound.values.length
  if offset.truthy then
    let texts ← (Token.read fragment.text.content).mapM (Token.shiftedBy offset)
    return (.plain texts.flatten, next)
  else return (fragment.text, next)

/-- Fragments numbered through from a start: their texts, and the next index. Without fragments that is the start, whatever it is. -/
def mergeAt (start : Value) : List Fragment → Except Error (List Wording × Value)
  | [] => .ok ([], start)
  | first :: rest => do
    let (text, next) ← first.renumberFrom start
    let (texts, last) ← mergeAt next rest
    return (text :: texts, last)

end Fragment

private theorem Token.mapM_shiftedBy_int (offset : Int) (tokens : List Token) :
    tokens.mapM (Token.shiftedBy (.int offset)) =
      (Numeral.check ((tokens.filterMap index?).map fun (index : Nat) => index + offset)).map fun _ =>
        tokens.map (Token.shifted offset) := by
  induction tokens with
  | nil => rfl
  | cons token rest ih =>
    rw [List.mapM_cons, ih, List.map_cons]
    cases token with
    | placeholder digits =>
      have numbers : (placeholder digits :: rest).filterMap index? = Text.numeralValue digits :: rest.filterMap index? := rfl
      rw [numbers, List.map_cons, Numeral.check_cons, Int.add_comm]
      by_cases writable : Numeral.Writable (offset + Text.numeralValue digits)
      · cases checked : Numeral.check ((rest.filterMap index?).map fun (index : Nat) => index + offset) <;>
          simp [shiftedBy, shifted, Value.plus, Value.printed_int, Numeral.write, numbered, writable, Int.add_comm,
            Bind.bind, Except.bind, Pure.pure, Except.pure, Except.map]
      · simp [shiftedBy, Value.plus, Value.printed_int, Numeral.write, writable, Bind.bind, Except.bind, Except.map]
    | _ =>
      simp only [List.filterMap_cons, index?]
      cases checked : Numeral.check ((rest.filterMap index?).map fun (index : Nat) => index + offset) <;> rfl

namespace Fragment

theorem renumberFrom_int (fragment : Fragment) (start : Int) :
    fragment.renumberFrom (.int start) = (fragment.renumber start).map fun numbered =>
      (numbered.text, .int numbered.next) := by
  unfold renumberFrom renumber
  cases Token.readPlaceholders fragment.text.content with
  | error _ => rfl
  | ok indices =>
    by_cases sound : highest indices = fragment.values.length
    · by_cases still : start = 1
      · subst still
        simp [sound, shiftedText, shiftedNumbers, Value.plus, Value.truthy, Bind.bind, Except.bind, Pure.pure, Except.pure, Except.map]
      · have moved : start + -1 ≠ 0 := by omega
        have same : fragment.shiftedNumbers start =
            ((Token.read fragment.text.content).filterMap Token.index?).map fun (index : Nat) => index + (start + -1) := by
          rw [shiftedNumbers, if_neg still, Token.placeholders, Int.sub_eq_add_neg]
        rw [same]
        cases checked : Numeral.check
            (((Token.read fragment.text.content).filterMap Token.index?).map fun (index : Nat) => index + (start + -1)) <;>
          simp [sound, still, moved, checked, shiftedText, shiftedNumbers, Value.plus, Value.truthy, Token.mapM_shiftedBy_int,
            List.flatMap, Int.sub_eq_add_neg, Bind.bind, Except.bind, Pure.pure, Except.pure, Except.map]
    · simp [sound, Bind.bind, Except.bind, Except.map, throw, throwThe, MonadExceptOf.throw]

theorem mergeAt_int (start : Int) (fragments : List Fragment) :
    mergeAt (.int start) fragments = (merge start fragments).map fun merged => (merged.texts, .int merged.next) := by
  unfold merge
  induction fragments generalizing start with
  | nil => rfl
  | cons first rest ih =>
    simp only [mergeAt, mergeFrom, renumberFrom_int, Bind.bind, Except.bind]
    cases first.renumber start with
    | error _ => rfl
    | ok numbered =>
      simp only [Except.map, ih]
      cases mergeFrom Except.ok numbered.next rest <;> rfl

end Fragment

/-! ### Rendered texts -/

def renderedValue (text : Value) (values : List Value) (next : Value) : Build Value := do
  let held ← Build.freshLabel
  return .record (← Build.freshLabel) .rendered [text, .list held values, next]

/-- The predicate numbered from a start, as a value with a list of its own. -/
def Predicate.renderFrom (predicate : Predicate) (start : Value) : Build Value := do
  let (text, next) ← bindFrom predicate.text.content start
  renderedValue (.text text) predicate.values next

namespace Chain

def renderFrom (chain : Chain) (start : Value) (newLine : Bool) : Build Value := do
  if chain.isEmpty then renderedValue (.text []) [] start
  else (← chain.toPredicate newLine).renderFrom start

def build (chain : Chain) (start : Value) (withWhere newLine : Bool) : Build BuiltQuery := do
  if chain.isEmpty then BuiltQuery.make [] []
  else
    let predicate ← chain.toPredicate newLine
    let (text, _) ← bindFrom predicate.text.content start
    BuiltQuery.make ((if withWhere then ("WHERE " : Text) else []) ++ text) predicate.values

end Chain

end SqlCompose
