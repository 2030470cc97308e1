import ByteMachine.Byte
import ByteMachine.Memory
import ByteMachine.Sink

/-!
# Faults

The reasons for which a call to the machine fails. A fault has a message, and where another failure
stands behind it, as the full sink behind a failed write, `Fault.chain` lists the messages from the
outermost one to the root cause.
-/

namespace ByteMachine

/-- Why a call to the machine failed. -/
inductive Fault where
  /-- The byte at the program counter is not an opcode. -/
  | illegalInstruction (opcode : Byte) (pc : Address)
  /-- An operand names a register that does not exist. -/
  | invalidRegister (operand : Byte) (pc : Address)
  /-- The program does not fit into memory. -/
  | programTooLarge (size : Nat)
  /-- The machine was stepped after it had stopped. -/
  | halted
  /-- The sink is full. -/
  | outputFailed
deriving DecidableEq, Repr

namespace Fault

/-- The text of a fault. -/
def message : Fault → String
  | illegalInstruction opcode pc =>
    "illegal instruction `0x" ++ opcode.hex ++ "` at `0x" ++ pc.hex ++ "`"
  | invalidRegister operand pc =>
    "register `" ++ operand.decimal ++ "` does not exist (instruction at `0x" ++ pc.hex ++ "`)"
  | programTooLarge size => Memory.tooLargeMessage size
  | halted => "machine is halted"
  | outputFailed => "Failed to write output"

/-- The messages of a fault and of what caused it, the root cause last. -/
def chain : Fault → List String
  -- the only fault that has another failure behind it
  | outputFailed => [outputFailed.message, Sink.fullMessage]
  | fault => [fault.message]

end Fault

end ByteMachine
