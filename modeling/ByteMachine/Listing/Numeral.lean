import ByteMachine.Byte

/-!
# Binary numerals

A byte in a listing is written with binary digits, as many as one likes as long as the value fits
into a byte. In front of the digits may stand the mark `0b`, and after the mark a plus sign, each at
most once. There must be at least one digit.

The digits are read from the left into a byte. A number that has left the range of a byte cannot
come back, so the first digit too many decides; zeros in front of the number never are too many.
-/

namespace ByteMachine.Numeral

/-- The base in which numerals are written. -/
def radix : Nat := 2

/-- The text behind the mark `0b`, if it starts with one. -/
def withoutMark : List Char → List Char
  | '0' :: 'b' :: rest => rest
  | cs => cs

/-- The text behind a plus sign, if it starts with one. -/
def withoutSign : List Char → List Char
  | '+' :: rest => rest
  | cs => cs

/-- The value of a digit. -/
def digit? (c : Char) : Option Nat :=
  if c = '0' then some 0 else if c = '1' then some 1 else none

/-- A number is continued by one more digit, unless it outgrows a byte. -/
def continueByte (n : Byte) (c : Char) : Option Byte :=
  match digit? c with
  | none => none
  | some digit =>
    let next := radix * n.toNat + digit
    if next < 256 then some (UInt8.ofNat next) else none

/-- The byte that a sequence of digits denotes, the most significant digit first. -/
def ofDigits? : List Char → Option Byte
  -- a mark and a sign alone are no numeral
  | [] => none
  | digits => digits.foldlM continueByte 0

/-- The byte that a numeral denotes, if the text is the numeral of a byte. -/
def byte? (cs : List Char) : Option Byte :=
  -- the mark stands in front of the sign
  ofDigits? (withoutSign (withoutMark cs))

example : byte? ['0', 'b', '+', '0', '1', '0', '1'] = some 5 := by decide

example : byte? ['+', '0', 'b', '1'] = none ∧ byte? ['0', 'b'] = none ∧ byte? ['2'] = none := by
  decide

end ByteMachine.Numeral
