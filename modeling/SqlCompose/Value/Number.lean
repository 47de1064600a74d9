import SqlCompose.Text.Digit

/-!
# Exact numbers

Integers, decimals and binary floating-point numbers are compared by the number they stand for. Every one of them is a whole number times a power of ten, and it has one form in which the whole number is not a multiple of ten; two numbers are equal exactly when these forms are.

A decimal text stands for itself. The text of a floating-point number stands for the 53-bit binary number nearest to it, and half-way cases go to the even one.
-/

namespace SqlCompose

/-- A number in its only form: the coefficient is no multiple of ten unless it is nought, and then the exponent is nought too. -/
inductive Number where
  | finite (coefficient : Int) (exponent : Int)
  | infinite (negative : Bool)
  deriving DecidableEq, Repr

namespace Number

/-- Moves the factors ten of a coefficient into the exponent. -/
private def strip (coefficient : Nat) (exponent : Int) : Nat × Int :=
  if coefficient = 0 then (0, 0)
  else if coefficient % 10 = 0 then strip (coefficient / 10) (exponent + 1)
  else (coefficient, exponent)
termination_by coefficient
decreasing_by omega

def scaled (negative : Bool) (coefficient : Nat) (exponent : Int) : Number :=
  let (coefficient, exponent) := strip coefficient exponent
  finite (if negative then -coefficient else coefficient) exponent

def ofInt (n : Int) : Number :=
  scaled (n < 0) n.natAbs 0

def isZero : Number → Bool
  | finite coefficient _ => coefficient == 0
  | infinite _ => false

/-! ### Reading a decimal text -/

private def signed : Text → Bool × Text
  | '-' :: rest => (true, rest)
  | '+' :: rest => (false, rest)
  | rest => (false, rest)

private def integer (text : Text) : Int :=
  let (negative, digits) := signed text
  if negative then -(Text.numeralValue digits : Int) else Text.numeralValue digits

/-- The sign, the digits as one number, and the power of ten of a text such as `-1.50E+3`. -/
def parts (text : Text) : Bool × Nat × Int :=
  let (negative, unsigned) := signed text
  let mantissa := unsigned.takeWhile fun c => c != 'e' && c != 'E'
  let exponent := integer ((unsigned.drop mantissa.length).drop 1)
  let whole := mantissa.takeWhile (· != '.')
  let fraction := (mantissa.drop whole.length).drop 1
  (negative, Text.numeralValue (whole ++ fraction), exponent - fraction.length)

private def isInfinite (text : Text) : Bool :=
  (signed text).2.head? == some 'i' || (signed text).2.head? == some 'I'

def ofDecimal (text : Text) : Number :=
  if isInfinite text then infinite (signed text).1
  else
    let (negative, coefficient, exponent) := parts text
    scaled negative coefficient exponent

/-! ### The nearest binary number -/

private def timesPower (base n : Nat) (exponent : Int) : Nat :=
  n * Nat.pow base exponent.toNat

/-- The whole number nearest to a quotient, the even one if two are equally near. -/
def roundHalfEven (numerator denominator : Nat) : Nat :=
  let quotient := numerator / denominator
  let twice := 2 * (numerator % denominator)
  if twice < denominator then quotient
  else if denominator < twice then quotient + 1
  else quotient + quotient % 2

/-- The 53-bit significand and the power of two of the binary number nearest to a quotient. -/
def nearestBinary (numerator denominator : Nat) : Nat × Int :=
  let guess : Int := (Nat.log2 numerator : Int) - Nat.log2 denominator - 53
  let ratio (power : Int) : Nat × Nat := (timesPower 2 numerator (-power), timesPower 2 denominator power)
  let guess := if Nat.pow 2 53 ≤ (ratio guess).1 / (ratio guess).2 then guess + 1 else guess
  let power := max guess (-1074)
  (roundHalfEven (ratio power).1 (ratio power).2, power)

def ofBinary (text : Text) : Number :=
  if isInfinite text then infinite (signed text).1
  else
    let (negative, coefficient, exponent) := parts text
    let (significand, power) := nearestBinary (timesPower 10 coefficient exponent) (timesPower 10 1 (-exponent))
    if 0 ≤ power then scaled negative (timesPower 2 significand power) 0
    else scaled negative (timesPower 5 significand (-power)) power

end Number

end SqlCompose
