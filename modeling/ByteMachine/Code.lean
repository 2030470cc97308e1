import ByteMachine.Instruction
import ByteMachine.Memory

/-!
# Code

A piece of code is a list of instructions and numbers, as it is written down by hand. In memory
each item takes one cell: an instruction its opcode, a number its last eight bits.
-/

namespace ByteMachine

/-- One item of a piece of code. -/
inductive CodeItem where
  | instruction (i : Instruction)
  | number (n : Int)
deriving DecidableEq, Repr

namespace CodeItem

/-- The byte that an item puts into memory. Of a number, also of a negative one, these are the last
eight bits. -/
def byte : CodeItem → Byte
  | instruction i => i.opcode
  | number n => UInt8.ofNat (n % 256).toNat

instance : Coe Instruction CodeItem := ⟨instruction⟩

instance (n : Nat) : OfNat CodeItem n := ⟨number n⟩

example : (number (-1)).byte = 255 ∧ (number 256).byte = 0 := by decide

end CodeItem

/-- Writes a piece of code into memory from `address` upwards. -/
def Memory.writeCode (m : Memory) (address : Address) (code : List CodeItem) : Memory :=
  m.writeAll address (code.map CodeItem.byte)

end ByteMachine
