import ByteMachine.Fault
import ByteMachine.Instruction
import ByteMachine.Machine

/-!
# Deeds

An instruction is carried out in two moves. First everything it depends on is looked up: its
operand bytes are resolved to registers, and the values it works with are read. The result is a
`Deed`, such as "pushed 5 from register 0 to address 0xF3". Then the deed is put into effect, which
cannot fail (`Machine.apply`). Only the first move checks anything (`Machine.deed`), so an
instruction with a bad operand leaves the machine as it was.

A deed is also what the journal says about the instruction (`Deed.text`); what is reported and what
is done come from the same values.

Two points of order show when the stack pointer is itself the operand. Pushing and calling read
their register after the stack pointer has been decremented; popping writes its register before the
stack pointer is incremented.
-/

namespace ByteMachine

/-- When a conditional jump is taken. -/
inductive Condition where
  | equal
  | notEqual
deriving DecidableEq, Repr

namespace Condition

/-- The last comparison satisfies the condition. Without a comparison nothing counts as equal. -/
def holds (f : Flags) : Condition → Bool
  | equal => f.equal
  | notEqual => !f.equal

/-- The jump that depends on the condition. -/
def instruction : Condition → Instruction
  | equal => .jeq
  | notEqual => .jne

end Condition

/-- What an instruction does in one particular state, with the values it found there. -/
inductive Deed where
  /-- The program has ended. -/
  | halted
  /-- The subroutine goes back to `address`. -/
  | returned (address : Address)
  /-- `value`, the content of `r`, is printed. -/
  | printed (r : Register) (value : Byte)
  /-- `value`, the content of `r`, goes to `sp`, the new top of the stack. -/
  | pushed (r : Register) (value : Byte) (sp : Address)
  /-- `value`, found at `sp`, the old top of the stack, goes to `r`. -/
  | popped (r : Register) (value : Byte) (sp : Address)
  /-- The subroutine at `address`, the content of `r`, is entered; `back` goes to `sp`, the new top
  of the stack. -/
  | called (r : Register) (address back sp : Address)
  /-- The program goes on at `address`. -/
  | jumped (address : Address)
  /-- The program goes on at `target`, or behind the jump if there is none. The operand is the byte
  as it stands in the program: a jump that is not taken does not ask which register it names. -/
  | branched (c : Condition) (operand : Byte) (target : Option Address)
  /-- `r` is set to `value`. -/
  | assigned (r : Register) (value : Byte)
  /-- `r` is set to `sum`, the sum of `r` and `s`. -/
  | added (r s : Register) (sum : Byte)
  /-- `r` is set to `product`, the product of `r` and `s`. -/
  | multiplied (r s : Register) (product : Byte)
  /-- The flags become `flags`, the outcome of comparing `r` to `s`. -/
  | compared (r s : Register) (flags : Flags)
deriving DecidableEq

namespace Deed

/-- The instruction whose deed it is. -/
def instruction : Deed → Instruction
  | halted => .hlt
  | returned .. => .ret
  | printed .. => .prn
  | pushed .. => .push
  | popped .. => .pop
  | called .. => .call
  | jumped .. => .jmp
  | branched c .. => c.instruction
  | assigned .. => .ldi
  | added .. => .add
  | multiplied .. => .mul
  | compared .. => .cmp

/-- The address that the deed assigns to the program counter, if it assigns one. -/
def target? : Deed → Option Address
  | returned address => some address
  | called _ address _ _ => some address
  | jumped address => some address
  | branched _ _ target => target
  | _ => none

/-- The value that the deed prints, if it prints one. -/
def printed? : Deed → Option Byte
  | printed _ value => some value
  | _ => none

/-- What the journal says about the deed: the instruction, then whatever it found or changed. -/
def text (d : Deed) : String :=
  d.instruction.name ++
    match d with
    | halted => ""
    | returned address => " 0x" ++ address.hex
    | printed r value => " " ++ r.name ++ ": " ++ value.decimal
    | pushed r value sp => " " ++ r.name ++ ": " ++ value.decimal ++ " -> 0x" ++ sp.hex
    | popped r value sp => " " ++ r.name ++ ": " ++ value.decimal ++ " <- 0x" ++ sp.hex
    | called r address back _ =>
      " " ++ r.name ++ ": 0x" ++ address.hex ++ ", returning to 0x" ++ back.hex
    | jumped address => " 0x" ++ address.hex
    | branched _ operand target =>
      " R" ++ operand.decimal ++ ": " ++ if target.isSome then "taken" else "not taken"
    | assigned r value => " " ++ r.name ++ " " ++ value.decimal
    | added r s sum => " " ++ r.name ++ " " ++ s.name ++ ": " ++ sum.decimal
    | multiplied r s product => " " ++ r.name ++ " " ++ s.name ++ ": " ++ product.decimal
    | compared r s flags => " " ++ r.name ++ " " ++ s.name ++ ": 0b" ++ flags.bits.binary 3

example : (pushed 0 5 0xF3).text = "PUSH R0: 5 -> 0xF3" := by decide

example : (branched .notEqual 9 none).text = "JNE R9: not taken" := by decide

end Deed

namespace Machine

/-! ### Looking up -/

/-- The register that an operand of the current instruction names. -/
def register (m : Machine) (operand : Byte) : Except Fault Register :=
  match Register.ofByte? operand with
  | some r => .ok r
  | none => .error (.invalidRegister operand m.pc)

/-- The deed of a conditional jump. -/
def branch (m : Machine) (c : Condition) (operand : Byte) : Except Fault Deed := do
  if c.holds m.flags then
    let r ← m.register operand
    return .branched c operand (some (m.registers.get r))
  else
    -- the operand is not looked at, so it need not name a register
    return .branched c operand none

/-- What the instruction `i` with the operand bytes `a` and `b` does to the machine. Of two bad
operands the first one is reported. -/
def deed (m : Machine) (i : Instruction) (a b : Byte) : Except Fault Deed :=
  match i with
  | .hlt => return .halted
  | .ret => return .returned (m.read m.sp)
  | .prn => do
    let r ← m.register a
    return .printed r (m.registers.get r)
  | .push => do
    let r ← m.register a
    -- the operand may be the stack pointer, so it is read after the decrement
    let lowered := m.withStackPointer (m.sp - 1)
    return .pushed r (lowered.registers.get r) lowered.sp
  | .pop => do
    let r ← m.register a
    return .popped r (m.read m.sp) m.sp
  | .call => do
    let r ← m.register a
    -- as for a push
    let lowered := m.withStackPointer (m.sp - 1)
    return .called r (lowered.registers.get r) (m.pc + 2) lowered.sp
  | .jmp => do
    let r ← m.register a
    return .jumped (m.registers.get r)
  | .jeq => m.branch .equal a
  | .jne => m.branch .notEqual a
  | .ldi => do
    let r ← m.register a
    return .assigned r b
  | .add => do
    let r ← m.register a
    let s ← m.register b
    return .added r s (m.registers.get r + m.registers.get s)
  | .mul => do
    let r ← m.register a
    let s ← m.register b
    return .multiplied r s (m.registers.get r * m.registers.get s)
  | .cmp => do
    let r ← m.register a
    let s ← m.register b
    return .compared r s (.ofCompare (m.registers.get r) (m.registers.get s))

/-! ### Putting into effect -/

/-- The machine after storing a value at a new top of the stack. -/
def storeOnStack (m : Machine) (sp : Address) (value : Byte) : Machine :=
  { m.withStackPointer sp with memory := m.memory.write sp value }

/-- The machine after setting a register. -/
def setRegister (m : Machine) (r : Register) (value : Byte) : Machine :=
  { m with registers := m.registers.set r value }

/-- The machine after a deed, apart from the program counter. -/
def applyInPlace (m : Machine) : Deed → Machine
  | .halted => { m with running := false }
  | .returned _ => m.withStackPointer (m.sp + 1)
  | .printed _ _ => m
  | .pushed _ value sp => m.storeOnStack sp value
  | .popped r value _ =>
    -- the operand may be the stack pointer, so the increment counts from the popped value
    let filled := m.setRegister r value
    filled.withStackPointer (filled.sp + 1)
  | .called _ _ back sp => m.storeOnStack sp back
  | .jumped _ => m
  | .branched _ _ _ => m
  | .assigned r value => m.setRegister r value
  | .added r _ sum => m.setRegister r sum
  | .multiplied r _ product => m.setRegister r product
  | .compared _ _ flags => { m with flags := flags }

/-- The machine after a deed. The program counter goes where the deed says, and otherwise behind
the instruction. -/
def apply (m : Machine) (d : Deed) : Machine :=
  { m.applyInPlace d with
    pc := d.target?.getD (m.pc + UInt8.ofNat d.instruction.width) }

end Machine

end ByteMachine
