/-!
# Decimal integers of 64 bits

An integer is written with decimal digits, at least one, behind at most one sign. It has to lie in
the range of 64 bits with a sign. The digits are read from the left, and the first thing that goes
wrong is reported: a character that is no digit, or a number that has left the range.
-/

namespace ByteMachine.Text

/-- Why a text is not an integer of 64 bits. -/
inductive IntegerError where
  | empty
  | invalidDigit
  | tooLarge
  | tooSmall
deriving DecidableEq, Repr

/-- The text of an integer error. -/
def IntegerError.message : IntegerError → String
  | empty => "cannot parse integer from empty string"
  | invalidDigit => "invalid digit found in string"
  | tooLarge => "number too large to fit in target type"
  | tooSmall => "number too small to fit in target type"

/-- The greatest integer of 64 bits. -/
def greatestInteger : Int := 9223372036854775807

/-- The least integer of 64 bits. -/
def leastInteger : Int := -9223372036854775808

/-- The value of a decimal digit. -/
def decimalDigit? (c : Char) : Option Nat :=
  if '0' ≤ c ∧ c ≤ '9' then some (c.toNat - '0'.toNat) else none

/-- A number is continued by one more digit, which moves it away from zero in the direction of
`sign`. -/
def continueInteger (sign n : Int) (c : Char) : Except IntegerError Int :=
  match decimalDigit? c with
  | none => .error .invalidDigit
  | some digit =>
    -- a number outside the range cannot come back, so the first digit too many decides
    let next := 10 * n + sign * digit
    if next > greatestInteger then
      .error .tooLarge
    else if next < leastInteger then
      .error .tooSmall
    else
      .ok next

/-- The number that digits behind a sign denote. -/
def signedInteger (sign : Int) : (digits : List Char) → Except IntegerError Int
  -- a sign alone is no number
  | [] => .error .invalidDigit
  | digits => digits.foldlM (continueInteger sign) 0

/-- The integer that a text denotes. -/
def integer : List Char → Except IntegerError Int
  | [] => .error .empty
  | '+' :: digits => signedInteger 1 digits
  | '-' :: digits => signedInteger (-1) digits
  | digits => signedInteger 1 digits

example : integer ['-', '0', '1'] = .ok (-1) ∧ integer ['+'] = .error .invalidDigit := by
  constructor <;> rfl

end ByteMachine.Text
