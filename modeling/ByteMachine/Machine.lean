import ByteMachine.Flags
import ByteMachine.Memory
import ByteMachine.Registers
import ByteMachine.Sink

/-!
# The machine

The state of the machine: its memory, its registers, the program counter, the flags, whether it is
running, and the sink that takes what it prints. The stack has no state of its own; it lives in
memory, and register 7 holds the address of its top.

A `Snapshot` is what one look at a machine shows: the program counter, the three bytes found there,
and the registers. Three bytes are always looked at, since no instruction is longer than that; the
opcode among them decides how many of the others mean anything.
-/

namespace ByteMachine

/-- The state of the machine. -/
structure Machine where
  memory : Memory
  registers : Registers
  /-- The address of the next instruction. -/
  pc : Address
  flags : Flags
  /-- Whether the machine can still be stepped. -/
  running : Bool
  /-- What takes the printed values. -/
  sink : Sink
deriving DecidableEq

namespace Machine

/-- The stack pointer of a fresh machine. The first push wraps around to the last cell. -/
def initialStackPointer : Byte := 0x00

/-- The conventional place for the stack to grow from, which leaves the cells above it free. -/
def stackTop : Byte := 0xF4

/-- A fresh machine that prints into `sink`. -/
def fresh (sink : Sink) : Machine where
  memory := .zero
  registers := Registers.zero.set .stackPointer initialStackPointer
  pc := 0
  flags := .clear
  running := true
  sink := sink

/-- The address of the top of the stack. -/
def sp (m : Machine) : Address :=
  m.registers.get .stackPointer

/-- The machine with another stack pointer. -/
def withStackPointer (m : Machine) (sp : Byte) : Machine :=
  { m with registers := m.registers.set .stackPointer sp }

/-- The content of a memory cell. -/
def read (m : Machine) (address : Address) : Byte :=
  m.memory.read address

end Machine

/-- What one look at a machine shows. -/
structure Snapshot where
  pc : Address
  /-- The byte at the program counter. -/
  opcode : Byte
  /-- The byte after it. -/
  first : Byte
  /-- The byte after that. -/
  second : Byte
  registers : Registers
deriving DecidableEq

/-- The text of a snapshot: program counter, bytes and registers, all in hexadecimal. -/
def Snapshot.text (s : Snapshot) : String :=
  "TRACE: " ++ s.pc.hex ++ " | " ++ " ".intercalate ([s.opcode, s.first, s.second].map Byte.hex) ++
    " | " ++ " ".intercalate (s.registers.toList.map Byte.hex)

/-- A look at the machine. The addresses of the three bytes wrap around. -/
def Machine.snapshot (m : Machine) : Snapshot where
  pc := m.pc
  opcode := m.read m.pc
  first := m.read (m.pc + 1)
  second := m.read (m.pc + 2)
  registers := m.registers

end ByteMachine
