import ByteMachine.Proofs.Machine.Table

/-!
# What the bits of an opcode say

An opcode says how many operand bytes its instruction has, and whether the instruction may assign
the program counter. What an instruction does is written down elsewhere, case by case
(`Machine.deed`). Here the two are compared.

An operand byte that the opcode does not count is never looked at (`execute_congr`). A deed with a
target belongs to an instruction whose opcode has the bit for it (`Does.target?_eq_none_or_setsPc`),
so every other instruction goes on behind itself. Where the program goes otherwise is
`Machine.Redirects`: to the address in a register, or to the one on top of the stack.
-/

namespace ByteMachine.Machine

variable {m m' : Machine} {i : Instruction} {a b : Byte} {d : Deed}

/-- The program goes on where the instruction sends it. A jump or a call goes to the address that
its register holds after the call; a return goes to the one that was on top of the stack. -/
inductive Redirects (m m' : Machine) (a : Byte) : Instruction → Prop where
  | ret (hpc : m'.pc = m.read m.sp) : Redirects m m' a .ret
  | call {r : Register} (hr : a.toNat = r) (hpc : m'.pc = m'.registers.get r) :
      Redirects m m' a .call
  | jmp {r : Register} (hr : a.toNat = r) (hpc : m'.pc = m'.registers.get r) :
      Redirects m m' a .jmp
  | jeqTaken {r : Register} (hc : m.flags.equal) (hr : a.toNat = r)
      (hpc : m'.pc = m'.registers.get r) : Redirects m m' a .jeq
  | jneTaken {r : Register} (hc : ¬m.flags.equal) (hr : a.toNat = r)
      (hpc : m'.pc = m'.registers.get r) : Redirects m m' a .jne

/-- The bits of the opcode describe what the instruction does to the machine. -/
structure KeepsToOpcode (m : Machine) (i : Instruction) : Prop where
  /-- The second operand byte does not matter unless both are counted. -/
  ignoresSecond : i.operands ≤ 1 → ∀ a b b', m.execute i a b = m.execute i a b'
  /-- Neither of the two matters if none is counted. -/
  ignoresBoth : i.operands = 0 → ∀ a b a' b', m.execute i a b = m.execute i a' b'
  /-- Only an instruction that may assign the program counter finds a target for it. -/
  target : ∀ a b d, m.deed i a b = .ok d → d.target? = none ∨ i.setsPc
  /-- Every other instruction goes on behind itself. -/
  advances : i.setsPc = false → ∀ a b m', m.Executes i a b m' →
    m'.pc = m.pc + UInt8.ofNat i.width
  redirects : i.setsPc → ∀ a b m', m.Executes i a b m' → m'.pc ≠ m.pc + UInt8.ofNat i.width →
    m.Redirects m' a i

/-! ### Targets -/

/-- **Only an instruction whose opcode has the bit assigns the program counter.** -/
theorem Does.target?_eq_none_or_setsPc (h : m.Does a b i d) : d.target? = none ∨ i.setsPc := by
  -- one case for each deed: the bit of the opcode is there exactly if the deed may have a target
  cases h with
  | returned | called | jumped => exact .inr rfl
  | equalTaken | equalNotTaken | notEqualTaken | notEqualNotTaken => exact .inr rfl
  | halted | printed | pushed | popped | assigned | added | multiplied | compared => exact .inl rfl

/-- The machine goes on behind the instruction if the deed has no target. -/
theorem pc_after_of_target?_eq_none (h : m.Does a b i d) (htarget : d.target? = none) :
    (m.after d).pc = m.pc + UInt8.ofNat i.width := by
  have hpc : (m.after d).pc = d.target?.getD (m.pc + UInt8.ofNat d.instruction.width) := rfl
  rw [hpc, htarget, h.instruction_eq, Option.getD_none]

/-- **A deed with a target leads to the address that its instruction names.** -/
theorem Does.redirects (h : m.Does a b i d) (htarget : d.target? ≠ none) :
    m.Redirects (m.after d) a i := by
  have named {r : Register} : Register.ofByte? a = some r → a.toNat = r :=
    Register.ofByte?_eq_some_iff.mp
  cases h with
  | returned => exact .ret rfl
  | called hr =>
    -- the stack pointer is decremented before the register is read, and not changed after that
    exact .call (named hr) (get_withStackPointer m (m.sp - 1) _).symm
  | jumped hr => exact .jmp (named hr) rfl
  | equalTaken hc hr => exact .jeqTaken hc (named hr) rfl
  | notEqualTaken hc hr => exact .jneTaken hc (named hr) rfl
  -- a jump that is not taken goes on behind itself, as all other instructions do
  | equalNotTaken | notEqualNotTaken => exact absurd rfl htarget
  | halted | printed | pushed | popped | assigned | added | multiplied | compared =>
    exact absurd rfl htarget

/-- **Opcode and execution agree.** The operand bytes that matter are among those that the opcode
counts, and the program counter advances by the width of the instruction unless the opcode allows it
to be assigned. -/
theorem opcode_describes_execution (m : Machine) (i : Instruction) : m.KeepsToOpcode i where
  ignoresSecond hi a b b' := execute_congr (fun _ => rfl) fun htwo => absurd htwo (by omega)
  ignoresBoth hi a b a' b' :=
    execute_congr (fun hone => absurd hone (by omega)) fun htwo => absurd htwo (by omega)
  target a b d hd := (deed_eq_ok_iff.mp hd).target?_eq_none_or_setsPc
  advances hi a b m' hexecutes := by
    obtain ⟨d, hdoes, -, rfl⟩ := executes_iff.mp hexecutes
    refine pc_after_of_target?_eq_none hdoes ?_
    refine hdoes.target?_eq_none_or_setsPc.resolve_right ?_
    -- without the bit there is no target
    rw [hi]
    exact Bool.false_ne_true
  redirects _ a b m' hexecutes hpc := by
    obtain ⟨d, hdoes, -, rfl⟩ := executes_iff.mp hexecutes
    refine hdoes.redirects fun htarget => hpc ?_
    -- a deed without a target would have gone on behind the instruction
    exact pc_after_of_target?_eq_none hdoes htarget

/-- A call to where the stack pointer points. It goes to the cell that holds its return address. -/
theorem opcode_describes_execution_call :
    let m := fresh .unlimited
    let m' := (m.execute .call 7 0xA7).machine
    Instruction.call.operands = 1 ∧ m.execute .call 7 0 = m.execute .call 7 0xA7 ∧
      m.Executes .call 7 0xA7 m' ∧ m'.pc ≠ m.pc + UInt8.ofNat Instruction.call.width ∧
      m'.pc = 0xFF ∧ m'.read 0xFF = 2 ∧ m.Redirects m' 7 .call := by
  intro m m'
  have hkeeps : m.KeepsToOpcode .call := opcode_describes_execution m .call
  have hexecutes : m.Executes .call 7 0xA7 m' := ⟨by decide +kernel, rfl⟩
  have hpc : m'.pc ≠ m.pc + UInt8.ofNat Instruction.call.width := by decide +kernel
  exact ⟨rfl, hkeeps.ignoresSecond (by decide) 7 0 0xA7, hexecutes, hpc, by decide +kernel,
    by decide +kernel, hkeeps.redirects rfl 7 0xA7 m' hexecutes hpc⟩

end ByteMachine.Machine
