import ByteMachine.Byte

/-!
# Instructions and their encoding

An instruction is a mnemonic, encoded as one byte. The bits of that opcode say how the instruction
takes part in the control of the machine: the upper two count the operand bytes that follow it in
memory, and bit 4 is set when the instruction may assign the program counter. Hence
`Instruction.operands`, `Instruction.width` and `Instruction.setsPc` are read off the opcode, and
the opcode is the only table.
-/

namespace ByteMachine

/-- The instructions of the machine. -/
inductive Instruction where
  /-- Stop the execution of the program. -/
  | hlt
  /-- Return from a subroutine to the address on top of the stack. -/
  | ret
  /-- Print the decimal value of a register. -/
  | prn
  /-- Push a register onto the stack. -/
  | push
  /-- Pop the top of the stack into a register. -/
  | pop
  /-- Push the return address and jump to the address held by a register. -/
  | call
  /-- Jump to the address held by a register. -/
  | jmp
  /-- Jump if the last comparison was equal. -/
  | jeq
  /-- Jump if the last comparison was not equal. -/
  | jne
  /-- Set a register to a constant. -/
  | ldi
  /-- Add the second register to the first. -/
  | add
  /-- Multiply the first register by the second. -/
  | mul
  /-- Compare two registers and set the flags. -/
  | cmp
deriving DecidableEq, Repr

namespace Instruction

/-- The byte that encodes an instruction. -/
def opcode : Instruction → Byte
  | hlt => 0b00000001
  | ret => 0b00010001
  | prn => 0b01000111
  | push => 0b01000101
  | pop => 0b01000110
  | call => 0b01010000
  | jmp => 0b01010100
  | jeq => 0b01010101
  | jne => 0b01010110
  | ldi => 0b10000010
  | add => 0b10100000
  | mul => 0b10100010
  | cmp => 0b10100111

/-- The mnemonic. -/
def name : Instruction → String
  | hlt => "HLT"
  | ret => "RET"
  | prn => "PRN"
  | push => "PUSH"
  | pop => "POP"
  | call => "CALL"
  | jmp => "JMP"
  | jeq => "JEQ"
  | jne => "JNE"
  | ldi => "LDI"
  | add => "ADD"
  | mul => "MUL"
  | cmp => "CMP"

/-- All instructions, grouped by what they do. -/
def all : List Instruction :=
  [hlt, ret, prn, push, pop, call, jmp, jeq, jne, ldi, add, mul, cmp]

/-- Instructions are ordered by their opcodes. -/
instance : Ord Instruction where
  compare i j := compare i.opcode j.opcode

/-- All instructions in the order of their opcodes. -/
def sorted : List Instruction :=
  all.mergeSort fun i j => i.opcode ≤ j.opcode

/-- The instruction of a mnemonic. -/
def ofName? (s : String) : Option Instruction :=
  all.find? (·.name == s)

/-! ### The bits of an opcode -/

/-- The number of operand bytes that follow the opcode in memory. -/
def operands (i : Instruction) : Nat :=
  ((i.opcode &&& 0b11000000) >>> 6).toNat

/-- The number of bytes of the encoded instruction, by which the program counter advances unless
the instruction assigns it. -/
def width (i : Instruction) : Nat :=
  i.operands + 1

/-- The instruction may assign the program counter. -/
def setsPc (i : Instruction) : Bool :=
  i.opcode &&& 0b00010000 != 0

/-! ### Decoding -/

/-- The instruction that a byte encodes. -/
def ofOpcode? (byte : Byte) : Option Instruction :=
  all.find? (·.opcode == byte)

/-- A byte that encodes no instruction. -/
structure UnknownOpcode where
  byte : Byte
deriving DecidableEq, Repr

/-- The text that refuses an unknown opcode. -/
def UnknownOpcode.message (u : UnknownOpcode) : String :=
  "No discriminant in enum `Instruction` matches the value `" ++ u.byte.decimal ++ "`"

/-- The instruction that a byte encodes, or the reason why there is none. -/
def decode (byte : Byte) : Except UnknownOpcode Instruction :=
  match ofOpcode? byte with
  | some i => .ok i
  | none => .error ⟨byte⟩

/-- Every instruction is in the list. -/
theorem mem_all (i : Instruction) : i ∈ all := by
  cases i <;> decide

/-- Different instructions have different opcodes. -/
theorem opcode_injective {i j : Instruction} (h : i.opcode = j.opcode) : i = j := by
  revert h
  cases i <;> cases j <;> decide

/-- Different instructions have different mnemonics. -/
theorem name_injective {i j : Instruction} (h : i.name = j.name) : i = j := by
  revert h
  cases i <;> cases j <;> decide

/-- Decoding undoes encoding, and decodes nothing else. -/
theorem ofOpcode?_eq_some_iff {byte : Byte} {i : Instruction} :
    ofOpcode? byte = some i ↔ byte = i.opcode := by
  constructor
  · intro h
    -- what is found has the opcode by which it was looked up
    exact (by simpa using List.find?_some h : i.opcode = byte).symm
  · rintro rfl
    cases i <;> rfl

/-- The opcode of an instruction is decoded to it. -/
@[simp] theorem ofOpcode?_opcode (i : Instruction) : ofOpcode? i.opcode = some i :=
  ofOpcode?_eq_some_iff.mpr rfl

/-- A byte that encodes no instruction is the opcode of none. -/
theorem ofOpcode?_eq_none_iff {byte : Byte} :
    ofOpcode? byte = none ↔ ∀ i : Instruction, byte ≠ i.opcode := by
  rw [Option.eq_none_iff_forall_ne_some]
  exact forall_congr' fun i => not_congr ofOpcode?_eq_some_iff

end Instruction

end ByteMachine
