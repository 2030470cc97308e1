import ByteMachine.Proofs.Machine.Steps

/-!
# What the result of a run says

A program may write over its own instructions, so the memory that a run leaves need not hold what
has been executed. The last step is an exception. If it fails, it has changed neither the memory nor
the program counter, and if it halts, it has changed the program counter only. Hence the result of a
run can be checked against the machine that the run leaves: the faulty byte is where the fault says,
and the halt is in front of the program counter (`result_describes`).

For the same reason a fault comes back if the machine is started again (`step_again`). A full sink
is the only case to think about, since there the step has changed the sink; but a full sink stays
full.
-/

namespace ByteMachine.Machine

variable {m : Machine} {fault : Fault} {o : Outcome} {limit : Nat}

/-- The result of a run describes the machine that the run leaves. -/
structure Describes (result : Option Fault) (m : Machine) : Prop where
  stopped : m.running = false
  notHalted : result ≠ some .halted
  notTooLarge : ∀ size, result ≠ some (.programTooLarge size)
  halt : result = none → m.read (m.pc - 1) = Instruction.hlt.opcode
  illegalInstruction : ∀ opcode pc, result = some (.illegalInstruction opcode pc) →
    pc = m.pc ∧ opcode = m.read m.pc ∧ ∀ i : Instruction, opcode ≠ i.opcode
  invalidRegister : ∀ x pc, result = some (.invalidRegister x pc) →
    pc = m.pc ∧ 8 ≤ x.toNat ∧ ∃ i : Instruction, m.read m.pc = i.opcode ∧ 1 ≤ i.operands ∧
      (x = m.read (m.pc + 1) ∨
        i ∈ [.add, .mul, .cmp] ∧ (m.read (m.pc + 1)).toNat < 8 ∧ x = m.read (m.pc + 2))
  /-- Started again, the machine fails again and is left as it is. -/
  again : ∀ fault, result = some fault →
    ({ m with running := true } : Machine).step.Yields m (some fault) []

/-! ### The last step -/

/-- A halt moves behind itself and stops. -/
theorem step_of_halt (hrunning : m.running) (hi : m.read m.pc = Instruction.hlt.opcode) :
    m.step.machine = { m with pc := m.pc + 1, running := false } :=
  machine_step_of_none hrunning hi rfl

/-- **A step that has failed fails again.** -/
theorem step_again (hrunning : m.running) (h : m.step.fault = some fault) :
    ({ m.step.machine with running := true } : Machine).step.Yields m.step.machine (some fault)
      [] := by
  obtain hfinding | ⟨rfl, d, hfinding, hprint⟩ := finding_of_fault h
  · have hyields := step_of_error hfinding
    -- the machine was only stopped, so it is the same again when it is started
    have hsame : ({ m.step.machine with running := true } : Machine) = m := by
      rw [hyields.machine]
      exact with_running_eq hrunning
    rw [hsame, hyields.machine]
    exact hyields
  · have hyields := step_of_not_canPrint hfinding hprint
    obtain ⟨value, hd, hfits⟩ := not_canPrint_iff.mp hprint
    have hline : d.line = value.decimalLine := by rw [Deed.line, hd]
    rw [← hline] at hfits
    -- the machine is the same again, apart from its sink, which is full
    have hfull : ({ m.step.machine with running := true } : Machine) =
        { m with sink := m.sink.write d.line } := by
      rw [hyields.machine, ← with_running_eq hrunning]
    have hfinding' : ({ m with sink := m.sink.write d.line } : Machine).finding = .ok d :=
      (finding_with_sink ..).trans hfinding
    have hprint' : ¬({ m with sink := m.sink.write d.line } : Machine).CanPrint d := by
      refine not_canPrint_iff.mpr ⟨value, hd, ?_⟩
      rw [← hline]
      exact Sink.not_fits_write_of_not_fits hfits
    have hyields' := step_of_not_canPrint hfinding' hprint'
    rw [Sink.write_write_of_not_fits hfits, Sink.accepted_write_of_not_fits hfits] at hyields'
    rw [hfull, hyields.machine]
    exact hyields'

/-- What a running machine reports is a full sink, or it can be read off the bytes at the program
counter, which are still there. -/
theorem fault_step_cases (hrunning : m.running) (h : m.step.fault = some fault) :
    fault = .outputFailed ∨
      m.step.machine = { m with running := false } ∧
        ((∀ i : Instruction, m.read m.pc ≠ i.opcode) ∧
            fault = .illegalInstruction (m.read m.pc) m.pc ∨
          ∃ i, m.read m.pc = i.opcode ∧
            m.Refuses (m.consulted (m.read (m.pc + 1)) (m.read (m.pc + 2)) i) fault) := by
  obtain hfinding | ⟨hfault, -⟩ := finding_of_fault h
  · have hcause := (finding_eq_error_iff hrunning).mp hfinding
    exact .inr ⟨(step_of_error hfinding).machine, hcause⟩
  · exact .inl hfault

/-- After a step that is the last one, the result describes the machine. -/
theorem describes_step (hrunning : m.running) (hover : m.step.isOver) :
    Describes m.step.fault m.step.machine where
  stopped := by
    cases hfault : m.step.fault with
    | some fault => exact not_running_of_fault hfault
    | none => simpa [Outcome.isOver, hfault] using hover
  notHalted h := by
    rw [fault_step_eq_halted_iff, hrunning] at h
    cases h
  notTooLarge size h := by
    obtain hfault | ⟨-, ⟨-, hfault⟩ | ⟨i, -, x, -, hfault⟩⟩ := fault_step_cases hrunning h
    -- a full sink, a bad opcode and a bad operand are other faults
    all_goals cases hfault
  halt h := by
    -- a step that stops the machine without failing is a halt
    have hstopped : ¬m.step.machine.running := by simpa [Outcome.isOver, h] using hover
    have hi : m.read m.pc = Instruction.hlt.opcode := by
      by_contra hne
      exact hstopped (running_step_iff.mpr ⟨h, hne⟩)
    have hback : m.pc + 1 - 1 = m.pc := UInt8.add_sub_cancel ..
    rw [step_of_halt hrunning hi, ← hi]
    show m.read (m.pc + 1 - 1) = m.read m.pc
    rw [hback]
  illegalInstruction opcode pc h := by
    obtain hfault | ⟨hmachine, ⟨hillegal, hfault⟩ | ⟨i, -, x, -, hfault⟩⟩ :=
      fault_step_cases hrunning h
    · cases hfault
    · -- the opcode is still at the program counter, which has not moved
      obtain ⟨rfl, rfl⟩ := Fault.illegalInstruction.inj hfault
      rw [hmachine]
      exact ⟨rfl, rfl, hillegal⟩
    · cases hfault
  invalidRegister x pc h := by
    obtain hfault | ⟨hmachine, ⟨-, hfault⟩ | ⟨i, hi, hrefuses⟩⟩ := fault_step_cases hrunning h
    · cases hfault
    · cases hfault
    · obtain ⟨y, hfault, hy, hoperands, hwhich⟩ := operand_of_refuses hrefuses
      obtain ⟨rfl, rfl⟩ := Fault.invalidRegister.inj hfault
      rw [hmachine]
      exact ⟨rfl, hy, i, hi, hoperands, hwhich⟩
  again fault h := step_again hrunning h

/-- **The result of a run describes the machine that the run leaves.** -/
theorem result_describes (hrunning : m.running) (hrun : m.run? limit = some o) :
    Describes o.fault o.machine := by
  obtain ⟨n, hlast, hover, hmachine, hfault⟩ := exists_last_step hrunning hrun
  rw [hmachine, hfault]
  exact describes_step hlast hover

/-- A number that the sink takes only the beginning of: the run fails, and so does the same step
once more. -/
theorem result_describes_full_sink :
    let m : Machine :=
      { fresh (.limited 1) with memory := .ofBytes [0x82, 0, 42, 0x47, 0, 0x01] }
    m.running ∧ ∃ o, m.run? 5 = some o ∧ o.fault = some .outputFailed ∧
      Describes o.fault o.machine := by
  intro m
  have hreturns : (m.run? 5).map Outcome.fault = some (some .outputFailed) := by decide +kernel
  obtain ⟨o, hrun, hfault⟩ := Option.map_eq_some_iff.mp hreturns
  exact ⟨rfl, o, hrun, hfault, result_describes rfl hrun⟩

end ByteMachine.Machine
