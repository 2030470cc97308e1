import ByteMachine.Proofs.Machine.Execute

/-!
# What a step does

A step of a running machine executes the instruction that it decodes at the program counter, on the
two bytes behind it, and stops the machine if that fails. So all that is known about executing an
instruction carries over to steps: `step_of_opcode` reads the parts of a step off the call it makes,
and `executes_of_step` recovers that call from a step that succeeded.
-/

namespace ByteMachine.Machine

variable {m : Machine} {i : Instruction}

/-- The call that a step makes if it decodes the instruction `i`. -/
def fetch (m : Machine) (i : Instruction) : Outcome :=
  m.execute i (m.read (m.pc + 1)) (m.read (m.pc + 2))

/-- A running machine is looked at, and then executes what it has fetched. -/
theorem step_of_running (h : m.running) :
    m.step = (Outcome.noting m (.fetched m.snapshot)).andThen fun m =>
      (m.executeFetched m.snapshot).stopOnFault :=
  if_pos h

/-- What is executed is the instruction that the first of the fetched bytes encodes. -/
theorem executeFetched_of_opcode (h : m.read m.pc = i.opcode) :
    m.executeFetched m.snapshot = m.fetch i := by
  -- the look shows the byte at the program counter
  have hdecode : Instruction.ofOpcode? m.snapshot.opcode = some i :=
    Instruction.ofOpcode?_eq_some_iff.mpr h
  rw [executeFetched, hdecode]
  rfl

section

variable (hrunning : m.running) (hi : m.read m.pc = i.opcode)

include hrunning hi

/-- The parts of a step on an instruction: a look, the call, and a stop if it fails. -/
theorem step_of_opcode :
    m.step = (Outcome.noting m (.fetched m.snapshot)).andThen fun _ =>
      (m.fetch i).stopOnFault := by
  -- the look leaves the machine as it is, so the call is made on the same one
  rw [step_of_running hrunning, ← executeFetched_of_opcode hi]
  rfl

/-- A step fails exactly as the call it makes. -/
theorem fault_step : m.step.fault = (m.fetch i).fault := by
  rw [step_of_opcode hrunning hi, Outcome.fault_andThen rfl, Outcome.fault_stopOnFault]

/-- A step writes what the call writes, since the look writes nothing. -/
theorem output_step : m.step.output = (m.fetch i).output := by
  rw [step_of_opcode hrunning hi, Outcome.output_andThen rfl, Outcome.output_noting,
    Outcome.output_stopOnFault, List.nil_append]

/-- A step that succeeds leaves the machine that the call leaves. -/
theorem machine_step_of_none (h : (m.fetch i).fault = none) :
    m.step.machine = (m.fetch i).machine := by
  rw [step_of_opcode hrunning hi, Outcome.machine_andThen rfl,
    Outcome.machine_stopOnFault_of_none h]

/-- A step that fails stops the machine that the call leaves. -/
theorem machine_step_of_some {fault : Fault} (h : (m.fetch i).fault = some fault) :
    m.step.machine = { (m.fetch i).machine with running := false } := by
  rw [step_of_opcode hrunning hi, Outcome.machine_andThen rfl,
    Outcome.machine_stopOnFault_of_some h]

end

/-- A step that succeeds has decoded an instruction and executed it. -/
theorem executes_of_step (hrunning : m.running) (hok : m.step.fault = none) :
    ∃ i, m.read m.pc = i.opcode ∧
      m.Executes i (m.read (m.pc + 1)) (m.read (m.pc + 2)) m.step.machine := by
  cases hi : Instruction.ofOpcode? (m.read m.pc) with
  | none =>
    -- a byte that is no opcode is refused, so the step would have failed
    have hillegal : m.executeFetched m.snapshot =
        .failing m (.illegalInstruction (m.read m.pc) m.pc) := by
      rw [executeFetched, show Instruction.ofOpcode? m.snapshot.opcode = none from hi]
      rfl
    rw [step_of_running hrunning, Outcome.fault_andThen rfl, Outcome.fault_stopOnFault] at hok
    exact absurd ((congrArg Outcome.fault hillegal).symm.trans hok) (by simp [Outcome.failing])
  | some i =>
    have hopcode := Instruction.ofOpcode?_eq_some_iff.mp hi
    have hfetch : (m.fetch i).fault = none := (fault_step hrunning hopcode).symm.trans hok
    exact ⟨i, hopcode, hfetch, (machine_step_of_none hrunning hopcode hfetch).symm⟩

end ByteMachine.Machine
