import ByteMachine.Proofs.Machine.Commands
import ByteMachine.Proofs.Machine.Failure
import Mathlib.Logic.Function.Basic

/-!
# Arithmetic on bytes

The instructions that set a register to a constant, to a sum or to a product can be executed on
eight bytes, and they can be worked out on eight natural numbers that never run over. The bytes are
always the last eight bits of the numbers, however often a sum or a product has run over in between.

`Assignment` is one of these instructions together with the registers that it names, so that none of
its operands can be refused. An assignment puts a value into one register, and the two sides differ
only in what the value is: `Assignment.byte` is what the machine finds, `Assignment.number` what is
worked out. `Registers.Reduces` is the relation between the bytes and the numbers. It is kept by one
assignment (`Registers.Reduces.assign`) and so by any list of them. That the machine does nothing
else than to set these registers is `Machine.executeAll_commands`.
-/

namespace ByteMachine

/-- The operand byte that names a register. -/
def Register.operand (r : Register) : Byte :=
  UInt8.ofNat r.val

/-- The operand of a register names it. -/
theorem Register.ofByte?_operand (r : Register) : ofByte? r.operand = some r := by
  have hlt : r.val < 2 ^ 8 := Nat.lt_trans r.isLt (by decide)
  rw [ofByte?_eq_some_iff, operand, UInt8.toNat_ofNat_of_lt' hlt]

/-! ### Assignments -/

/-- An instruction that sets a register, with operands that name registers. -/
inductive Assignment where
  /-- `r` becomes `value`. -/
  | constant (r : Register) (value : Byte)
  /-- `s` is added to `r`. -/
  | sum (r s : Register)
  /-- `r` is multiplied by `s`. -/
  | product (r s : Register)
deriving DecidableEq

namespace Assignment

/-- The instruction with its operand bytes. -/
def command : Assignment → Command
  | constant r value => ⟨.ldi, r.operand, value⟩
  | sum r s => ⟨.add, r.operand, s.operand⟩
  | product r s => ⟨.mul, r.operand, s.operand⟩

/-- The register that is set. -/
def register : Assignment → Register
  | constant r _ => r
  | sum r _ => r
  | product r _ => r

/-- The value among bytes, where sums and products run over. -/
def byte (rs : Registers) : Assignment → Byte
  | constant _ value => value
  | sum r s => rs.get r + rs.get s
  | product r s => rs.get r * rs.get s

/-- The value among natural numbers, where nothing runs over. -/
def number (ns : Register → Nat) : Assignment → Nat
  | constant _ value => value.toNat
  | sum r s => ns r + ns s
  | product r s => ns r * ns s

/-- Eight natural numbers after the assignment. -/
def compute (ns : Register → Nat) (x : Assignment) : Register → Nat :=
  Function.update ns x.register (x.number ns)

/-- Eight natural numbers after a list of assignments. -/
def computeAll (ns : Register → Nat) (xs : List Assignment) : Register → Nat :=
  xs.foldl compute ns

end Assignment

/-! ### Bytes and numbers -/

namespace Registers

variable {rs : Registers} {ns : Register → Nat}

/-- The registers after the assignment. -/
def assign (rs : Registers) (x : Assignment) : Registers :=
  rs.set x.register (x.byte rs)

/-- Every register holds the last eight bits of its number. -/
def Reduces (rs : Registers) (ns : Register → Nat) : Prop :=
  ∀ r, (rs.get r).toNat = ns r % 256

/-- Eight bytes, taken for numbers, are their own last eight bits. -/
theorem reduces_toNat (rs : Registers) : rs.Reduces fun r => (rs.get r).toNat :=
  fun r => (Nat.mod_eq_of_lt (rs.get r).toNat_lt).symm

/-- **The value among bytes is the value among numbers, reduced.** -/
theorem Reduces.toNat_byte (h : rs.Reduces ns) (x : Assignment) :
    (x.byte rs).toNat = x.number ns % 256 := by
  -- sums and products of bytes are reduced, and it does not matter that their operands are as well
  cases x with
  | constant r value => exact (Nat.mod_eq_of_lt value.toNat_lt).symm
  | sum r s =>
    calc (rs.get r + rs.get s).toNat
      _ = ((rs.get r).toNat + (rs.get s).toNat) % 256 := UInt8.toNat_add ..
      _ = (ns r % 256 + ns s % 256) % 256 := by rw [h r, h s]
      _ = (ns r + ns s) % 256 := (Nat.add_mod ..).symm
  | product r s =>
    calc (rs.get r * rs.get s).toNat
      _ = ((rs.get r).toNat * (rs.get s).toNat) % 256 := UInt8.toNat_mul ..
      _ = (ns r % 256 * (ns s % 256)) % 256 := by rw [h r, h s]
      _ = (ns r * ns s) % 256 := (Nat.mul_mod ..).symm

/-- One assignment keeps bytes and numbers together. -/
theorem Reduces.assign (h : rs.Reduces ns) (x : Assignment) :
    (rs.assign x).Reduces (x.compute ns) := by
  intro r
  rw [Registers.assign, Assignment.compute, get_set]
  -- only the register that is set has a new number
  by_cases hr : r = x.register
  · subst hr
    rw [if_pos rfl, Function.update_self]
    exact h.toNat_byte x
  · rw [if_neg hr, Function.update_of_ne hr]
    exact h r

/-- A list of assignments keeps bytes and numbers together. -/
theorem Reduces.foldl_assign (h : rs.Reduces ns) (xs : List Assignment) :
    (xs.foldl Registers.assign rs).Reduces (Assignment.computeAll ns xs) := by
  -- by induction on the assignments, each of which starts from what those in front have left
  induction xs generalizing rs ns with
  | nil => exact h
  | cons x xs ih => exact ih (h.assign x)

end Registers

/-! ### What the machine does -/

namespace Assignment

/-- The deed of the assignment. -/
def deed (rs : Registers) (x : Assignment) : Deed :=
  match x with
  | constant r value => .assigned r value
  | sum r s => .added r s (x.byte rs)
  | product r s => .multiplied r s (x.byte rs)

/-- An assignment prints nothing. -/
theorem printed?_deed (x : Assignment) (rs : Registers) : (x.deed rs).printed? = none := by
  cases x <;> rfl

/-- An assignment does not say where to go on. -/
theorem target?_deed (x : Assignment) (rs : Registers) : (x.deed rs).target? = none := by
  cases x <;> rfl

/-- An assignment has no line. -/
theorem line_deed (x : Assignment) (rs : Registers) : (x.deed rs).line = [] := by
  rw [Deed.line, x.printed?_deed]

/-- All three instructions have two operands. -/
theorem width_deed (x : Assignment) (rs : Registers) : (x.deed rs).instruction.width = 3 := by
  cases x with
  | constant => exact (rfl : Instruction.ldi.width = 3)
  | sum => exact (rfl : Instruction.add.width = 3)
  | product => exact (rfl : Instruction.mul.width = 3)

end Assignment

namespace Machine

/-- The operands name registers, so the instruction finds its deed. -/
theorem does_deed (m : Machine) (x : Assignment) :
    m.Does x.command.a x.command.b x.command.instruction (x.deed m.registers) := by
  cases x with
  | constant r value => exact .assigned r.ofByte?_operand
  | sum r s => exact .added r.ofByte?_operand s.ofByte?_operand
  | product r s => exact .multiplied r.ofByte?_operand s.ofByte?_operand

/-- The deed sets its register and goes on behind itself. -/
theorem after_deed (m : Machine) (x : Assignment) :
    m.after (x.deed m.registers) =
      { m with registers := m.registers.assign x, pc := m.pc + 3 } := by
  rw [after, x.line_deed, write_nil, apply, x.target?_deed, x.width_deed]
  cases x <;> rfl

/-- **An assignment is executed without a fault, and sets its register.** -/
theorem execute_command (m : Machine) (x : Assignment) :
    (m.execute x.command.instruction x.command.a x.command.b).Yields
      { m with registers := m.registers.assign x, pc := m.pc + 3 } none [] := by
  -- nothing is printed, so even a full sink cannot refuse it
  have hprint : m.CanPrint (x.deed m.registers) := by
    intro value hvalue
    rw [x.printed?_deed] at hvalue
    cases hvalue
  rw [execute_of_does (does_deed m x), ← after_deed, ← x.line_deed m.registers]
  exact perform_of_canPrint hprint

/-- Assignments are executed without a fault, one after the other. -/
theorem executeAll_commands (m : Machine) (xs : List Assignment) :
    (m.executeAll (xs.map Assignment.command)).Yields
      { m with
        registers := xs.foldl Registers.assign m.registers
        pc := m.pc + UInt8.ofNat (3 * xs.length) } none [] := by
  -- by induction on the list, for the machine that is left in front of it
  induction xs generalizing m with
  | nil =>
    have hpc : m.pc + UInt8.ofNat (3 * 0) = m.pc := UInt8.add_zero _
    rw [List.length_nil, hpc]
    exact ⟨rfl, rfl, rfl⟩
  | cons x xs ih =>
    -- the width of the first instruction goes with those of the others
    have hpc : m.pc + 3 + UInt8.ofNat (3 * xs.length) =
        m.pc + UInt8.ofNat (3 * (xs.length + 1)) := by
      rw [Nat.mul_succ, Nat.add_comm, UInt8.ofNat_add, UInt8.add_assoc]
      rfl
    have hrest := ih { m with registers := m.registers.assign x, pc := m.pc + 3 }
    rw [hpc] at hrest
    exact (execute_command m x).andThen hrest

/-- The assignments are carried out one after the other, and leave the numbers that are worked out,
reduced to bytes. -/
structure Computes (m : Machine) (xs : List Assignment) : Prop where
  fault : (m.executeAll (xs.map Assignment.command)).fault = none
  /-- Apart from the registers, only the program counter changes. -/
  machine : m.afterAll (xs.map Assignment.command) =
    { m with
      registers := (m.afterAll (xs.map Assignment.command)).registers
      pc := m.pc + UInt8.ofNat (3 * xs.length) }
  output : (m.executeAll (xs.map Assignment.command)).output = []
  registers : ∀ r, ((m.afterAll (xs.map Assignment.command)).registers.get r).toNat =
    Assignment.computeAll (fun s => (m.registers.get s).toNat) xs r % 256

/-- **Arithmetic on bytes is arithmetic on numbers, reduced at the end.** -/
theorem arithmetic_is_exact (m : Machine) (xs : List Assignment) : m.Computes xs := by
  have hyields := executeAll_commands m xs
  have hregisters : (m.afterAll (xs.map Assignment.command)).registers =
      xs.foldl Registers.assign m.registers := congrArg Machine.registers hyields.machine
  refine ⟨hyields.fault, ?_, hyields.output, ?_⟩
  · rw [hregisters]
    exact hyields.machine
  · rw [hregisters]
    exact m.registers.reduces_toNat.foldl_assign xs

-- 200 times 200 is 40000, of which the last eight bits are 64
example :
    let xs : List Assignment := [.constant 7 200, .product 7 7]
    ((fresh .unlimited).afterAll (xs.map Assignment.command)).registers.get 7 = 64 := by
  decide +kernel

end Machine

end ByteMachine
