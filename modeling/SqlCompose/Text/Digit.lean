import SqlCompose.Text

/-!
# Decimal digits

Every script's decimal digits are ten consecutive characters, in ascending order of value, so a digit is known by the zero before it. A numeral may mix scripts. The number that a numeral stands for is read in base ten; the number that is written is always in ASCII.
-/

namespace SqlCompose.Text

/-- The digits nought of the scripts other than ASCII. -/
def foreignZeros : List Nat := [
  1632, 1776, 1984, 2406, 2534, 2662, 2790, 2918, 3046, 3174, 3302, 3430, 3558, 3664, 3792, 3872,
  4160, 4240, 6112, 6160, 6470, 6608, 6784, 6800, 6992, 7088, 7232, 7248, 42528, 43216, 43264,
  43472, 43504, 43600, 44016, 65296, 66720, 68912, 69734, 69872, 69942, 70096, 70384, 70736,
  70864, 71248, 71360, 71472, 71904, 72016, 72784, 73040, 73120, 92768, 92864, 93008, 120782,
  120792, 120802, 120812, 120822, 123200, 123632, 125264, 130032]

def digitValue? (c : Char) : Option Nat :=
  if c.toNat < 128 then
    if c.isDigit then some (c.toNat - 48) else none
  else
    (foreignZeros.find? fun nought => nought ≤ c.toNat && c.toNat < nought + 10).map (c.toNat - ·)

def isDigit (c : Char) : Bool :=
  (digitValue? c).isSome

def numeralValue (digits : Text) : Nat :=
  digits.foldl (fun value c => 10 * value + (digitValue? c).getD 0) 0

/-! ### Writing and reading numbers -/

def ofNat (n : Nat) : Text :=
  Nat.toDigits 10 n

def ofInt : Int → Text
  | .ofNat n => ofNat n
  | .negSucc n => '-' :: ofNat (n + 1)

theorem digitValue?_of_isDigit {c : Char} (digit : c.isDigit) : digitValue? c = some (c.toNat - '0'.toNat) := by
  have small : c.toNat < 128 := by
    simp only [Char.isDigit, Bool.and_eq_true, decide_eq_true_eq] at digit
    have upper : c.val.toNat ≤ 57 := digit.2
    have same : c.toNat = c.val.toNat := rfl
    omega
  simp [digitValue?, small, digit]

theorem isDigit_of_ascii {c : Char} (digit : c.isDigit) : isDigit c := by
  simp [isDigit, digitValue?_of_isDigit digit]

theorem isDigit_of_mem_ofNat {n : Nat} {c : Char} (member : c ∈ ofNat n) : isDigit c :=
  isDigit_of_ascii (Nat.isDigit_of_mem_toDigits (by decide) (by decide) member)

theorem ofNat_ne_nil (n : Nat) : ofNat n ≠ [] := by
  rw [ofNat, Nat.toDigits_eq_if (by decide)]
  split <;> simp

private theorem foldl_digits (digits : Text) (start : Nat) (ascii : ∀ c ∈ digits, c.isDigit) :
    digits.foldl (fun value c => 10 * value + (digitValue? c).getD 0) start = Nat.ofDigitChars 10 digits start := by
  induction digits generalizing start with
  | nil => rfl
  | cons c rest ih =>
    have head := digitValue?_of_isDigit (ascii c (by simp))
    rw [List.foldl_cons, ih _ fun d member => ascii d (List.mem_cons_of_mem _ member)]
    simp [Nat.ofDigitChars, head]

theorem numeralValue_ofNat (n : Nat) : numeralValue (ofNat n) = n := by
  rw [numeralValue, ofNat, foldl_digits _ _ fun c member => Nat.isDigit_of_mem_toDigits (by decide) (by decide) member]
  exact Nat.ofDigitChars_toDigits (by decide) (by decide)

end SqlCompose.Text
