import SqlCompose.Error
import SqlCompose.Text.Digit

/-!
# Numerals

A whole number is written in ASCII digits, behind a minus sign if it is below nought. No numeral of more than a fixed number of digits is read or written; leading noughts count, and the sign does not.
-/

namespace SqlCompose.Numeral

/-- The most digits that a numeral may have. -/
def digitLimit : Nat := 4300

def Writable (n : Int) : Prop :=
  n.natAbs < Nat.pow 10 digitLimit

instance (n : Int) : Decidable (Writable n) :=
  inferInstanceAs (Decidable (n.natAbs < Nat.pow 10 digitLimit))

def write (n : Int) : Except Error Text :=
  if Writable n then .ok (Text.ofInt n) else .error .numberTooLong

/-- Fails if one of some numbers cannot be written. -/
def check (numbers : List Int) : Except Error Unit :=
  if ∀ n ∈ numbers, Writable n then .ok () else .error .numberTooLong

def read (digits : Text) : Except Error Nat :=
  if digits.length ≤ digitLimit then .ok (Text.numeralValue digits) else .error (.numeralTooLong digits.length)

@[simp] theorem check_nil : check [] = .ok () := by
  simp [check]

theorem check_cons (n : Int) (numbers : List Int) :
    check (n :: numbers) = if Writable n then check numbers else .error .numberTooLong := by
  by_cases first : Writable n
  · simp [check, first]
  · simp [check, first]

end SqlCompose.Numeral
