/-!
# Bytes and the ways they are written

A memory cell, a register, an operand and the program counter all hold one byte. Its arithmetic is
that of `UInt8`: sums, differences and products are taken modulo 256, which is what lets addresses
run around past the last cell.

Three notations occur in what the program prints: two upper-case hexadecimal digits
(`Byte.hex`), a fixed number of binary digits (`Byte.binary`), and the decimal number without
leading zeros (`Byte.decimal`).
-/

namespace ByteMachine

/-- Eight bits: the content of a memory cell or of a register. -/
abbrev Byte := UInt8

/-- The name of a memory cell. There are 256 cells, so every byte names one of them. -/
abbrev Address := Byte

/-- The upper-case hexadecimal digit of a number below sixteen. -/
def hexDigit (n : Nat) : Char :=
  if n < 10 then Char.ofNat ('0'.toNat + n) else Char.ofNat ('A'.toNat + (n - 10))

namespace Byte

/-- A byte in two upper-case hexadecimal digits. -/
def hex (b : Byte) : String :=
  String.ofList [hexDigit (b.toNat / 16), hexDigit (b.toNat % 16)]

/-- The last `width` binary digits of a byte, the most significant first. -/
def binary (width : Nat) (b : Byte) : String :=
  String.ofList
    ((List.range width).reverse.map fun i => if b.toNat.testBit i then '1' else '0')

/-- A byte as a decimal number. -/
def decimal (b : Byte) : String :=
  toString b.toNat

/-- A byte as a decimal number on a line of its own, in ASCII. -/
def decimalLine (b : Byte) : List Byte :=
  b.decimal.toList.map (fun c => UInt8.ofNat c.toNat) ++ [0x0A]

end Byte

example : Byte.hex 0xA7 = "A7" ∧ Byte.hex 5 = "05" := by decide

example : Byte.decimalLine 42 = [0x34, 0x32, 0x0A] := by decide

example : Byte.binary 8 5 = "00000101" ∧ Byte.binary 3 4 = "100" := by decide

end ByteMachine
