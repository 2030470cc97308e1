import ByteMachine.Proofs.Machine.Execute

/-!
# Sequences of instructions

A machine can execute instructions one after the other without fetching any of them. A `Command` is
an instruction with two operand bytes, and `Machine.executeAll` executes a list of commands, up to
the first fault. The program counter plays no part in what comes next; instructions change it and
may read it, and that is all.

`Machine.ExecutesAll` is a sequence without a fault. It splits wherever the list does
(`executesAll_append`), and what one command does to the stack is said once for each kind of command
(`Executes.of_push` and its companions).
-/

namespace ByteMachine

/-- An instruction with two operand bytes, of which it may use fewer. -/
structure Command where
  instruction : Instruction
  a : Byte
  b : Byte
deriving DecidableEq

/-- The commands that leave the stack alone. Only pushes, pops, calls and returns move the stack
pointer, but an instruction that sets a register may set this one. -/
def Command.IsNeutral (c : Command) : Prop :=
  match c.instruction with
  | .ldi | .add | .mul => c.a ≠ 7
  | .prn | .cmp | .jmp | .jeq | .jne | .hlt => True
  | .push | .pop | .call | .ret => False

namespace Machine

/-- Executes commands one after the other, up to the first fault. -/
def executeAll : Machine → List Command → Outcome
  | m, [] => .quiet m
  | m, c :: cs => (m.execute c.instruction c.a c.b).andThen fun m => m.executeAll cs

/-- The machine after the commands, or after the first of them that fails. -/
def afterAll (m : Machine) (w : List Command) : Machine :=
  (m.executeAll w).machine

/-- The commands are executed without a fault and leave the machine `m'`. -/
def ExecutesAll (m : Machine) (w : List Command) (m' : Machine) : Prop :=
  (m.executeAll w).fault = none ∧ m.afterAll w = m'

variable {m m' : Machine} {c : Command} {u v w : List Command} {a b : Byte}

/-! ### Splitting -/

/-- A sequence is executed part by part. -/
theorem executeAll_append (m : Machine) (u v : List Command) :
    m.executeAll (u ++ v) = (m.executeAll u).andThen fun m => m.executeAll v := by
  -- by induction on the first part, from whatever machine it starts
  induction u generalizing m with
  | nil => rw [List.nil_append, executeAll, Outcome.andThen_quiet]
  | cons c u ih =>
    rw [List.cons_append, executeAll, executeAll, Outcome.andThen_assoc]
    congr 1
    funext m
    exact ih m

/-- A sequence of one command is that command. -/
theorem executeAll_singleton (m : Machine) (c : Command) :
    m.executeAll [c] = m.execute c.instruction c.a c.b :=
  Outcome.andThen_quiet_right _

/-- The empty sequence leaves the machine as it is. -/
theorem executesAll_nil : m.ExecutesAll [] m' ↔ m = m' :=
  and_iff_right rfl

/-- A sequence is executed without a fault exactly if its parts are, one on the machine of the
other. -/
theorem executesAll_append :
    m.ExecutesAll (u ++ v) m' ↔ ∃ m₁, m.ExecutesAll u m₁ ∧ m₁.ExecutesAll v m' := by
  unfold ExecutesAll afterAll
  rw [executeAll_append, Outcome.fault_andThen_eq_none_iff]
  refine ⟨?_, ?_⟩
  · rintro ⟨⟨hu, hv⟩, hm⟩
    -- the first part has not failed, so the second one decides where it ends
    rw [Outcome.machine_andThen hu] at hm
    exact ⟨_, ⟨hu, rfl⟩, hv, hm⟩
  · rintro ⟨m₁, ⟨hu, rfl⟩, hv, hm⟩
    rw [Outcome.machine_andThen hu]
    exact ⟨⟨hu, hv⟩, hm⟩

/-- A sequence of one command succeeds as the command does. -/
theorem executesAll_singleton :
    m.ExecutesAll [c] m' ↔ m.Executes c.instruction c.a c.b m' := by
  rw [ExecutesAll, afterAll, executeAll_singleton, Executes]

/-- The first command is executed, and the others on the machine it leaves. -/
theorem executesAll_cons :
    m.ExecutesAll (c :: w) m' ↔
      ∃ m₁, m.Executes c.instruction c.a c.b m₁ ∧ m₁.ExecutesAll w m' := by
  rw [← List.singleton_append, executesAll_append]
  simp only [executesAll_singleton]

/-! ### The stack under a command -/

/-- An operand that is not 7 does not name the stack pointer. -/
theorem ne_stackPointer {r : Register} (hr : Register.ofByte? a = some r) (ha : a ≠ 7) :
    r ≠ .stackPointer := by
  rintro rfl
  exact ha (UInt8.toNat_inj.mp (Register.ofByte?_eq_some_iff.mp hr))

/-- A push stores the value that its register has after the decrement. -/
theorem Executes.of_push (h : m.Executes .push a b m') :
    ∃ r : Register, a.toNat = r ∧ m'.sp = m.sp - 1 ∧
      m'.memory = m.memory.write (m.sp - 1) (m.lowered r) := by
  obtain ⟨d, hdoes, -, rfl⟩ := executes_iff.mp h
  cases hdoes with
  | pushed hr =>
    exact ⟨_, Register.ofByte?_eq_some_iff.mp hr, sp_withStackPointer .., rfl⟩

/-- A call stores the address behind itself. -/
theorem Executes.of_call (h : m.Executes .call a b m') :
    m'.sp = m.sp - 1 ∧ m'.memory = m.memory.write (m.sp - 1) (m.pc + 2) := by
  obtain ⟨d, hdoes, -, rfl⟩ := executes_iff.mp h
  cases hdoes with
  | called hr => exact ⟨sp_withStackPointer .., rfl⟩

/-- A pop into another register than the stack pointer takes the value off the stack. -/
theorem Executes.of_pop (h : m.Executes .pop a b m') (ha : a ≠ 7) :
    ∃ s : Register, a.toNat = s ∧ m'.registers.get s = m.read m.sp ∧ m'.sp = m.sp + 1 ∧
      m'.memory = m.memory := by
  obtain ⟨d, hdoes, -, rfl⟩ := executes_iff.mp h
  cases hdoes with
  | @popped s hs =>
    -- the register that is set is another one, so the stack pointer is still the old one
    have hne := ne_stackPointer hs ha
    have hsp : (m.setRegister s (m.read m.sp)).sp = m.sp :=
      Registers.get_set_of_ne _ _ hne.symm
    refine ⟨s, Register.ofByte?_eq_some_iff.mp hs, ?_, ?_, rfl⟩
    · exact (Registers.get_set_of_ne _ _ hne).trans (Registers.get_set_self ..)
    · refine (sp_withStackPointer ..).trans ?_
      rw [hsp]

/-- A return goes to the address that it takes off the stack. -/
theorem Executes.of_ret (h : m.Executes .ret a b m') :
    m'.pc = m.read m.sp ∧ m'.sp = m.sp + 1 ∧ m'.memory = m.memory := by
  obtain ⟨d, hdoes, -, rfl⟩ := executes_iff.mp h
  cases hdoes with
  | returned => exact ⟨rfl, sp_withStackPointer .., rfl⟩

/-- A neutral command leaves the stack alone. -/
theorem Executes.of_isNeutral (h : m.Executes c.instruction c.a c.b m') (hc : c.IsNeutral) :
    m'.sp = m.sp ∧ m'.memory = m.memory := by
  obtain ⟨i, a, b⟩ := c
  obtain ⟨d, hdoes, -, rfl⟩ := executes_iff.mp h
  cases hdoes with
  -- these commands set no register
  | halted | printed | jumped | compared => exact ⟨rfl, rfl⟩
  | equalTaken | equalNotTaken | notEqualTaken | notEqualNotTaken => exact ⟨rfl, rfl⟩
  | assigned hr => exact ⟨Registers.get_set_of_ne _ _ (ne_stackPointer hr hc).symm, rfl⟩
  | added hr hs => exact ⟨Registers.get_set_of_ne _ _ (ne_stackPointer hr hc).symm, rfl⟩
  | multiplied hr hs => exact ⟨Registers.get_set_of_ne _ _ (ne_stackPointer hr hc).symm, rfl⟩
  -- these commands are not neutral
  | returned | pushed | popped | called => exact hc.elim

end Machine

end ByteMachine
