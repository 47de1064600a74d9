import SqlCompose.Error
import SqlCompose.Value.Equality

/-!
# Adding whole numbers

A whole number can be added to a number of any type. The sum has the type of the number, except that a truth value counts as nought or one and gives a whole number.

A sum with a floating-point number is the binary number nearest to the exact sum. It is written with the fewest digits that read back as it. A sum with a decimal has all the places of the decimal, as far as twenty-eight digits reach; half-way cases go to the even neighbour.
-/

namespace SqlCompose

/-- A coefficient times a power of ten. Other than in a number, the coefficient may end in noughts. -/
structure Scientific where
  coefficient : Nat
  exponent : Int
  deriving DecidableEq, Repr

namespace Scientific

def digits (x : Scientific) : Text :=
  Text.ofNat x.coefficient

/-- A number without its sign; one that is not finite has no such form. -/
def ofNumber? : Number → Option Scientific
  | .finite coefficient exponent => some ⟨coefficient.natAbs, exponent⟩
  | .infinite _ => none

def stripped (x : Scientific) : Scientific :=
  (ofNumber? (Number.scaled false x.coefficient x.exponent)).getD x

/-- How many digits stand before the point; so many noughts stand behind it if the number is below nought. -/
def place (x : Scientific) : Int :=
  x.digits.length + x.exponent

/-! ### Fewer digits -/

/-- The neighbours among the numbers with so many digits fewer, the nearer one first. -/
def neighbours (x : Scientific) (fewer : Nat) : List Scientific :=
  let unit := Nat.pow 10 fewer
  let below : Scientific := ⟨x.coefficient / unit, x.exponent + fewer⟩
  let above : Scientific := { below with coefficient := below.coefficient + 1 }
  if 2 * (x.coefficient % unit) ≤ unit then [below, above] else [above, below]

def source (x : Scientific) : Text :=
  x.digits ++ "e" ++ Text.ofInt x.exponent

def readsAs (x y : Scientific) : Bool :=
  Number.ofBinary x.source = Number.ofBinary y.source

/-- The number with the fewest digits that reads as the same binary number, when at most so many digits can be dropped. -/
def shortest (x : Scientific) : Nat → Scientific
  | 0 => x
  | fewer + 1 => ((x.neighbours (fewer + 1)).find? (readsAs x)).getD (shortest x fewer)

def rounded (limit : Nat) (x : Scientific) : Scientific :=
  let excess := x.digits.length - limit
  if excess = 0 then x
  else
    let y : Scientific := ⟨Number.roundHalfEven x.coefficient (Nat.pow 10 excess), x.exponent + excess⟩
    if limit < y.digits.length then ⟨y.coefficient / 10, y.exponent + 1⟩ else y

/-! ### Writing -/

/-- Digits with a point behind so many of them; no point is needed at the end. -/
def pointed (digits : Text) (place : Int) : Text :=
  if place ≤ 0 then "0." ++ List.replicate (-place).toNat '0' ++ digits
  else
    let whole := digits.take place.toNat ++ List.replicate (place.toNat - digits.length) '0'
    let fraction := digits.drop place.toNat
    if fraction.isEmpty then whole else whole ++ "." ++ fraction

/-- The first digit, a point if others follow, and the power of ten with its sign. -/
def withExponent (x : Scientific) (mark : Text) (width : Nat) : Text :=
  let power := x.place - 1
  pointed x.digits 1 ++ mark ++ (if power < 0 then ("-" : Text) else "+") ++ Text.padded width power.natAbs

/-- A floating-point number: with a point from a ten-thousandth on and below ten to the sixteenth, and with an exponent of at least two digits beyond. -/
def binaryText (x : Scientific) : Text :=
  if -4 < x.place && x.place ≤ 16 then pointed x.digits x.place ++ if 0 ≤ x.exponent then (".0" : Text) else []
  else x.withExponent "e" 2

/-- A decimal: with a point unless noughts would have to be added behind its digits, or more than six in front of them. -/
def decimalText (x : Scientific) : Text :=
  if x.exponent ≤ 0 && -6 < x.place then pointed x.digits x.place else x.withExponent "E" 1

end Scientific

/-! ### Sums -/

/-- The exact sum of a coefficient times a power of ten and a whole number: its coefficient, and the power of ten, which is nought at most. -/
def exactSum (coefficient exponent n : Int) : Int × Int :=
  let power := min exponent 0
  (coefficient * Nat.pow 10 (exponent - power).toNat + n * Nat.pow 10 (-power).toNat, power)

private def signedText (n : Int) (text : Text) : Text :=
  if n < 0 then '-' :: text else text

def binarySum (spelling : Text) (n : Int) : Text :=
  match Number.ofBinary spelling with
  | .infinite _ => spelling
  | .finite coefficient exponent =>
    let (sum, power) := exactSum coefficient exponent n
    let exact : Scientific := ⟨sum.natAbs, power⟩
    let nearest := (Scientific.ofNumber? (Number.ofBinary exact.source)).getD exact
    signedText sum (nearest.shortest (nearest.digits.length - 1)).stripped.binaryText

def decimalSum (spelling : Text) (n : Int) : Text :=
  match Number.ofDecimal spelling with
  | .infinite _ => spelling
  | .finite _ _ =>
    let (negative, coefficient, exponent) := Number.parts spelling
    let (sum, power) := exactSum (if negative then -coefficient else coefficient) exponent n
    signedText sum (Scientific.rounded 28 ⟨sum.natAbs, power⟩).decimalText

def Value.plus (n : Int) : Value → Except Error Value
  | int m => .ok (int (m + n))
  | bool b => .ok (int ((if b then 1 else 0) + n))
  | float spelling => .ok (float (binarySum spelling n))
  | floatNaN label => .ok (floatNaN label)
  | decimal spelling => .ok (decimal (decimalSum spelling n))
  | value => if value.isSignalling then .error .incomparable
    else if value.isNumeric then .ok value else .error .badArgument

end SqlCompose
