import ByteMachine.Proofs.Machine.Step
import ByteMachine.Proofs.Sink

/-!
# How calls fail

A call fails in one of two ways. Either it finds no deed to put into effect, and then nothing has
happened yet; or the deed prints, the sink does not take the whole line, and then nothing has
happened but that. There is no third way, since putting a deed into effect cannot fail.

For an instruction this is read off `Machine.deed`. The operands that it takes for registers are
`Machine.consulted`, and it finds no deed exactly if one of them names no register
(`deed_eq_error_iff`): each look-up adds one operand to the list of those that can be refused
(`register_bind_eq_error_iff`).

A step is treated in the same way. `Machine.finding` is what it finds, and the three ways in which
it can end are `step_of_error`, `step_of_canPrint` and `step_of_not_canPrint`. Whatever is proved
about steps later is proved by these three cases.
-/

namespace ByteMachine

/-- What an outcome comes to, apart from the journal. -/
structure Outcome.Yields (o : Outcome) (m : Machine) (fault : Option Fault)
    (output : List Byte) : Prop where
  machine : o.machine = m
  fault : o.fault = fault
  output : o.output = output

/-- A call on the machine that a successful one left. -/
theorem Outcome.Yields.andThen {o : Outcome} {call : Machine → Outcome} {m m' : Machine}
    {fault : Option Fault} {first second : List Byte} (h : o.Yields m none first)
    (hcall : (call m).Yields m' fault second) :
    (o.andThen call).Yields m' fault (first ++ second) := by
  obtain ⟨rfl, hok, rfl⟩ := h
  refine ⟨?_, ?_, ?_⟩
  · rw [machine_andThen hok, hcall.machine]
  · rw [fault_andThen hok, hcall.fault]
  · rw [output_andThen hok, hcall.output]

namespace Machine

variable {m m' : Machine} {i : Instruction} {a b x : Byte} {operands output : List Byte} {d : Deed}
  {fault : Fault}

/-- To set the running state to what it is changes nothing. -/
theorem with_running_eq {running : Bool} (h : m.running = running) :
    { m with running := running } = m := by
  subst h
  rfl

/-! ### Operands that name no register -/

/-- The operand bytes that the instruction takes for registers, in the order in which it looks them
up. -/
def consulted (m : Machine) (a b : Byte) : Instruction → List Byte
  | .hlt | .ret => []
  | .ldi | .prn | .push | .pop | .call | .jmp => [a]
  | .add | .mul | .cmp => [a, b]
  -- a jump that is not taken does not ask where it would lead
  | .jeq => if m.flags.equal then [a] else []
  | .jne => if m.flags.equal then [] else [a]

/-- The fault reports the first of the operands that names no register. -/
def Refuses (m : Machine) (operands : List Byte) (fault : Fault) : Prop :=
  ∃ x, operands.find? (8 ≤ ·.toNat) = some x ∧ fault = .invalidRegister x m.pc

/-- Without an operand there is nothing to refuse. -/
theorem not_refuses_nil : ¬m.Refuses [] fault := by
  rintro ⟨x, hx, -⟩
  cases hx

/-- Of two operands, the first is reported if it names no register, and otherwise the second. -/
theorem refuses_cons :
    m.Refuses (x :: operands) fault ↔
      8 ≤ x.toNat ∧ fault = .invalidRegister x m.pc ∨ x.toNat < 8 ∧ m.Refuses operands fault := by
  unfold Refuses
  by_cases hx : 8 ≤ x.toNat
  · -- `x` is the first one
    have hfind : (x :: operands).find? (8 ≤ ·.toNat) = some x :=
      List.find?_cons_of_pos (decide_eq_true hx)
    simp only [hfind, Option.some.injEq, exists_eq_left']
    rw [and_iff_right hx, or_iff_left]
    exact fun h => absurd h.1 (Nat.not_lt.mpr hx)
  · -- the first one comes later, if there is one
    have hfind : (x :: operands).find? (8 ≤ ·.toNat) = operands.find? (8 ≤ ·.toNat) :=
      List.find?_cons_of_neg (by simpa using hx)
    rw [hfind, and_iff_right (Nat.lt_of_not_le hx), or_iff_right]
    exact fun h => hx h.1

/-- With all operands looked up, nothing is refused any more. -/
theorem pure_eq_error_iff : (pure d : Except Fault Deed) = .error fault ↔ m.Refuses [] fault :=
  iff_of_false (fun h => by cases h) not_refuses_nil

/-- **A look-up in front of what can be refused adds its own operand to it.** -/
theorem register_bind_eq_error_iff {f : Register → Except Fault Deed}
    (hf : ∀ r, f r = .error fault ↔ m.Refuses operands fault) :
    (m.register x >>= f) = .error fault ↔ m.Refuses (x :: operands) fault := by
  rw [refuses_cons]
  unfold register
  cases hr : Register.ofByte? x with
  | none =>
    -- the look-up fails, and `f` is not reached
    have hx : 8 ≤ x.toNat := Register.ofByte?_eq_none_iff.mp hr
    show (Except.error (.invalidRegister x m.pc) : Except Fault Deed) = .error fault ↔ _
    rw [and_iff_right hx, or_iff_left (fun h => absurd h.1 (Nat.not_lt.mpr hx))]
    exact ⟨fun h => (Except.error.inj h).symm, fun h => congrArg Except.error h.symm⟩
  | some r =>
    -- the look-up succeeds, and it is up to `f`
    have hx : x.toNat < 8 := by
      rw [Register.ofByte?_eq_some_iff.mp hr]
      exact r.isLt
    show f r = .error fault ↔ _
    rw [hf, and_iff_right hx, or_iff_right (fun h => absurd hx (Nat.not_lt.mpr h.1))]

/-- A conditional jump refuses its operand only if it looks it up. -/
theorem branch_eq_error_iff {c : Condition} :
    m.branch c x = .error fault ↔ m.Refuses (if c.holds m.flags then [x] else []) fault := by
  unfold branch
  split
  · -- the register is looked up only if the condition holds
    exact register_bind_eq_error_iff fun _ => pure_eq_error_iff
  · exact pure_eq_error_iff

/-- **An instruction finds no deed exactly if one of the operands that it looks up names no
register**, and the first of these is what it reports. -/
theorem deed_eq_error_iff :
    m.deed i a b = .error fault ↔ m.Refuses (m.consulted a b i) fault := by
  cases i with
  | hlt | ret => exact pure_eq_error_iff
  | ldi | prn | push | pop | call | jmp =>
    exact register_bind_eq_error_iff fun _ => pure_eq_error_iff
  | add | mul | cmp =>
    exact register_bind_eq_error_iff fun _ => register_bind_eq_error_iff fun _ => pure_eq_error_iff
  | jeq => exact branch_eq_error_iff
  | jne =>
    -- the condition is stated the other way round where the operands are listed
    have hconsulted : m.consulted a b .jne = if !m.flags.equal then [a] else [] := by
      rw [consulted]
      cases m.flags.equal <;> rfl
    rw [hconsulted]
    exact branch_eq_error_iff

/-- A single operand is refused if it names no register. -/
theorem refuses_singleton :
    m.Refuses [x] fault ↔ 8 ≤ x.toNat ∧ fault = .invalidRegister x m.pc := by
  rw [refuses_cons, or_iff_left]
  exact fun h => not_refuses_nil h.2

/-- A refused operand is the first one, or it is the second one of an instruction that looks up
both. -/
theorem operand_of_refuses (h : m.Refuses (m.consulted a b i) fault) :
    ∃ x, fault = .invalidRegister x m.pc ∧ 8 ≤ x.toNat ∧ 1 ≤ i.operands ∧
      (x = a ∨ i ∈ [.add, .mul, .cmp] ∧ a.toNat < 8 ∧ x = b) := by
  -- most instructions look up their first operand only
  have one (hi : 1 ≤ i.operands) (h : m.Refuses [a] fault) :
      ∃ x, fault = .invalidRegister x m.pc ∧ 8 ≤ x.toNat ∧ 1 ≤ i.operands ∧
        (x = a ∨ i ∈ [.add, .mul, .cmp] ∧ a.toNat < 8 ∧ x = b) := by
    obtain ⟨ha, rfl⟩ := refuses_singleton.mp h
    exact ⟨a, rfl, ha, hi, .inl rfl⟩
  cases i with
  | hlt | ret => exact (not_refuses_nil h).elim
  | ldi | prn | push | pop | call | jmp => exact one (by decide) h
  | add | mul | cmp =>
    obtain ⟨ha, rfl⟩ | ⟨ha, hsecond⟩ := refuses_cons.mp h
    · exact ⟨a, rfl, ha, by decide, .inl rfl⟩
    · -- the second operand is asked only if the first one names a register
      obtain ⟨hb, rfl⟩ := refuses_singleton.mp hsecond
      exact ⟨b, rfl, hb, by decide, .inr ⟨by decide, ha, rfl⟩⟩
  | jeq =>
    -- the flag decides whether the operand is looked up
    rw [consulted] at h
    split at h
    · exact one (by decide) h
    · exact (not_refuses_nil h).elim
  | jne =>
    rw [consulted] at h
    split at h
    · exact (not_refuses_nil h).elim
    · exact one (by decide) h

/-! ### Calls of an instruction -/

/-- A line is not taken if it is too long for the sink. -/
theorem not_canPrint_iff :
    ¬m.CanPrint d ↔ ∃ value, d.printed? = some value ∧ ¬m.sink.fits value.decimalLine := by
  simp only [CanPrint, Classical.not_forall, exists_prop]

/-- What is printed is as much of the line as the sink takes. -/
theorem output_print (m : Machine) (value : Byte) :
    (m.print value).output = m.sink.accepted value.decimalLine :=
  List.append_nil _

/-- A deed whose line is taken is put into effect, and its line is all that is written. -/
theorem perform_of_canPrint (h : m.CanPrint d) : (m.perform d).Yields (m.after d) none d.line where
  machine := machine_perform h
  fault := fault_perform.mpr h
  output := by
    unfold perform Deed.line
    cases hd : d.printed? with
    | none =>
      rw [Outcome.andThen_quiet]
      rfl
    | some value =>
      -- the line is written in front of the deed, which writes nothing
      rw [Outcome.output_andThen ((fault_print m value).mpr (h value hd)), output_print,
        Sink.accepted_of_fits (h value hd)]
      exact List.append_nil _

/-- If the sink does not take the line of a deed, that was all. -/
theorem perform_of_not_fits {value : Byte} (hd : d.printed? = some value)
    (hfits : ¬m.sink.fits value.decimalLine) :
    m.perform d = m.print value ∧ (m.print value).fault = some .outputFailed := by
  have hfault : (m.print value).fault = some .outputFailed := if_neg hfits
  refine ⟨?_, hfault⟩
  unfold perform
  rw [hd]
  exact Outcome.andThen_of_fault_some hfault

/-- A deed whose line is not taken changes the sink and nothing else. -/
theorem perform_of_not_canPrint (h : ¬m.CanPrint d) :
    (m.perform d).Yields { m with sink := m.sink.write d.line } (some .outputFailed)
      (m.sink.accepted d.line) := by
  obtain ⟨value, hd, hfits⟩ := not_canPrint_iff.mp h
  obtain ⟨hperform, hfault⟩ := perform_of_not_fits hd hfits
  have hline : d.line = value.decimalLine := by rw [Deed.line, hd]
  rw [hperform, hline]
  exact ⟨rfl, hfault, output_print m value⟩

/-- An operand that is refused leaves no trace but the fault. -/
theorem execute_of_error (h : m.deed i a b = .error fault) :
    (m.execute i a b).Yields m (some fault) [] := by
  rw [execute, h]
  exact ⟨rfl, rfl, rfl⟩

/-- The three ways in which the call of an instruction can end. -/
theorem execute_cases (m : Machine) (i : Instruction) (a b : Byte) :
    (∃ fault, m.Refuses (m.consulted a b i) fault ∧ (m.execute i a b).Yields m (some fault) []) ∨
    (∃ d, m.Does a b i d ∧ m.CanPrint d ∧ (m.execute i a b).Yields (m.after d) none d.line) ∨
    ∃ d, m.Does a b i d ∧ ¬m.CanPrint d ∧
      (m.execute i a b).Yields { m with sink := m.sink.write d.line } (some .outputFailed)
        (m.sink.accepted d.line) := by
  cases hdeed : m.deed i a b with
  | error fault => exact .inl ⟨fault, deed_eq_error_iff.mp hdeed, execute_of_error hdeed⟩
  | ok d =>
    have hdoes := deed_eq_ok_iff.mp hdeed
    rw [execute_of_does hdoes]
    by_cases hprint : m.CanPrint d
    · exact .inr (.inl ⟨d, hdoes, hprint, perform_of_canPrint hprint⟩)
    · exact .inr (.inr ⟨d, hdoes, hprint, perform_of_not_canPrint hprint⟩)

/-- Only an instruction that prints has a line, and it is the line of a register. -/
theorem Does.of_printed (hdoes : m.Does a b i d) {value : Byte} (h : d.printed? = some value) :
    i = .prn ∧ ∃ r : Register, a.toNat = r ∧ value = m.registers.get r := by
  cases hdoes with
  | printed hr =>
    exact ⟨rfl, _, Register.ofByte?_eq_some_iff.mp hr, (Option.some.inj h).symm⟩
  | _ => cases h

/-! ### Steps -/

/-- What a step finds before it changes anything: the deed to put into effect, or why there is
none. -/
def finding (m : Machine) : Except Fault Deed :=
  if m.running then
    match Instruction.ofOpcode? (m.read m.pc) with
    | some i => m.deed i (m.read (m.pc + 1)) (m.read (m.pc + 2))
    | none => .error (.illegalInstruction (m.read m.pc) m.pc)
  else .error .halted

/-- At an opcode, a step finds what its instruction finds. -/
theorem finding_of_opcode (hrunning : m.running) (hi : m.read m.pc = i.opcode) :
    m.finding = m.deed i (m.read (m.pc + 1)) (m.read (m.pc + 2)) := by
  rw [finding, if_pos hrunning, Instruction.ofOpcode?_eq_some_iff.mpr hi]

/-- At any other byte, a step finds nothing but that byte. -/
theorem finding_of_illegal (hrunning : m.running) (hi : ∀ i : Instruction, m.read m.pc ≠ i.opcode) :
    m.finding = .error (.illegalInstruction (m.read m.pc) m.pc) := by
  rw [finding, if_pos hrunning, Instruction.ofOpcode?_eq_none_iff.mpr hi]

/-- A machine that has stopped finds nothing. -/
theorem finding_of_not_running (h : m.running = false) : m.finding = .error .halted := by
  rw [finding, h]
  rfl

/-- What a step finds does not depend on what has been printed. -/
theorem finding_with_sink (m : Machine) (s : Sink) :
    ({ m with sink := s } : Machine).finding = m.finding := by
  have hdeed (i : Instruction) (a b : Byte) :
      ({ m with sink := s } : Machine).deed i a b = m.deed i a b := by
    cases i <;> rfl
  simp only [finding, hdeed]
  rfl

/-- A byte is the opcode of an instruction, or of none. -/
theorem opcode_cases (x : Byte) :
    (∃ i : Instruction, x = i.opcode) ∨ ∀ i : Instruction, x ≠ i.opcode := by
  rw [← not_exists]
  exact Classical.em _

/-- A step finds a deed exactly if the machine is running and its instruction has this deed. -/
theorem finding_eq_ok_iff :
    m.finding = .ok d ↔
      m.running ∧ ∃ i, m.read m.pc = i.opcode ∧
        m.Does (m.read (m.pc + 1)) (m.read (m.pc + 2)) i d := by
  constructor
  · intro h
    -- in all other cases it finds a fault
    cases hrunning : m.running with
    | false =>
      rw [finding_of_not_running hrunning] at h
      cases h
    | true =>
      refine ⟨rfl, ?_⟩
      obtain ⟨i, hi⟩ | hillegal := opcode_cases (m.read m.pc)
      · rw [finding_of_opcode hrunning hi] at h
        exact ⟨i, hi, deed_eq_ok_iff.mp h⟩
      · rw [finding_of_illegal hrunning hillegal] at h
        cases h
  · rintro ⟨hrunning, i, hi, hdoes⟩
    rw [finding_of_opcode hrunning hi]
    exact deed_eq_ok_iff.mpr hdoes

/-- A running machine finds a fault at a byte that is no opcode, and at an operand that is refused.
-/
theorem finding_eq_error_iff (hrunning : m.running) :
    m.finding = .error fault ↔
      (∀ i : Instruction, m.read m.pc ≠ i.opcode) ∧
          fault = .illegalInstruction (m.read m.pc) m.pc ∨
        ∃ i, m.read m.pc = i.opcode ∧
          m.Refuses (m.consulted (m.read (m.pc + 1)) (m.read (m.pc + 2)) i) fault := by
  obtain ⟨i, hi⟩ | hillegal := opcode_cases (m.read m.pc)
  · rw [finding_of_opcode hrunning hi, deed_eq_error_iff, or_iff_right (fun h => h.1 i hi)]
    refine ⟨fun h => ⟨i, hi, h⟩, ?_⟩
    -- an opcode belongs to one instruction only
    rintro ⟨j, hj, h⟩
    obtain rfl := Instruction.opcode_injective (hi.symm.trans hj)
    exact h
  · rw [finding_of_illegal hrunning hillegal, or_iff_left (fun ⟨i, hi, _⟩ => hillegal i hi),
      and_iff_right hillegal]
    exact ⟨fun h => (Except.error.inj h).symm, fun h => congrArg Except.error h.symm⟩

/-- The look in front of a step adds nothing, and a fault stops the machine. -/
theorem step_of_executeFetched {result : Option Fault} (hrunning : m.running)
    (h : (m.executeFetched m.snapshot).Yields m' result output) :
    m.step.Yields (if result = none then m' else { m' with running := false }) result output := by
  obtain ⟨rfl, rfl, rfl⟩ := h
  rw [step_of_running hrunning]
  refine ⟨?_, ?_, ?_⟩
  · -- only here it matters whether there is a fault
    rw [Outcome.machine_andThen rfl]
    show (m.executeFetched m.snapshot).stopOnFault.machine = _
    cases hfault : (m.executeFetched m.snapshot).fault with
    | none => exact Outcome.machine_stopOnFault_of_none hfault
    | some fault => exact Outcome.machine_stopOnFault_of_some hfault
  · rw [Outcome.fault_andThen rfl]
    exact Outcome.fault_stopOnFault _
  · rw [Outcome.output_andThen rfl, Outcome.output_noting, List.nil_append]
    exact Outcome.output_stopOnFault _

/-- What is executed fails as the finding says, and nothing happens. -/
theorem executeFetched_of_error (hrunning : m.running) (h : m.finding = .error fault) :
    m.executeFetched m.snapshot = .failing m fault := by
  -- either the instruction refuses its operands, or there is no instruction
  obtain ⟨i, hi⟩ | hillegal := opcode_cases (m.read m.pc)
  · rw [finding_of_opcode hrunning hi] at h
    rw [executeFetched_of_opcode hi, fetch, execute, h]
  · rw [finding_of_illegal hrunning hillegal] at h
    obtain rfl := Except.error.inj h
    have hnone : Instruction.ofOpcode? m.snapshot.opcode = none :=
      Instruction.ofOpcode?_eq_none_iff.mpr hillegal
    rw [executeFetched, hnone]
    rfl

/-- **If there is no deed, the step changes nothing but that the machine stops.** -/
theorem step_of_error (h : m.finding = .error fault) :
    m.step.Yields { m with running := false } (some fault) [] := by
  cases hrunning : m.running with
  | false =>
    -- to stop a machine that has stopped changes nothing
    rw [finding_of_not_running hrunning] at h
    obtain rfl := Except.error.inj h
    rw [with_running_eq hrunning, step, hrunning]
    exact ⟨rfl, rfl, rfl⟩
  | true =>
    have hfetched : (m.executeFetched m.snapshot).Yields m (some fault) [] := by
      rw [executeFetched_of_error hrunning h]
      exact ⟨rfl, rfl, rfl⟩
    exact step_of_executeFetched hrunning hfetched

/-- What is executed is the deed that was found. -/
theorem executeFetched_of_ok (h : m.finding = .ok d) :
    m.executeFetched m.snapshot = m.perform d := by
  obtain ⟨-, i, hi, hdoes⟩ := finding_eq_ok_iff.mp h
  rw [executeFetched_of_opcode hi, fetch, execute_of_does hdoes]

/-- **If the sink takes the line of the deed, the step puts the deed into effect.** -/
theorem step_of_canPrint (h : m.finding = .ok d) (hprint : m.CanPrint d) :
    m.step.Yields (m.after d) none d.line := by
  have hperform := perform_of_canPrint hprint
  rw [← executeFetched_of_ok h] at hperform
  exact step_of_executeFetched (finding_eq_ok_iff.mp h).1 hperform

/-- **If the sink does not take the whole line, it takes a part of it, and the step changes nothing
else but that the machine stops.** -/
theorem step_of_not_canPrint (h : m.finding = .ok d) (hprint : ¬m.CanPrint d) :
    m.step.Yields { m with sink := m.sink.write d.line, running := false } (some .outputFailed)
      (m.sink.accepted d.line) := by
  have hperform := perform_of_not_canPrint hprint
  rw [← executeFetched_of_ok h] at hperform
  exact step_of_executeFetched (finding_eq_ok_iff.mp h).1 hperform

/-! ### Failures are atomic -/

/-- When the instruction fails, and what is left of the call then. -/
structure ExecuteFailure (m : Machine) (i : Instruction) (a b : Byte) : Prop where
  invalidRegister : ∀ x pc, (m.execute i a b).fault = some (.invalidRegister x pc) ↔
    (m.consulted a b i).find? (8 ≤ ·.toNat) = some x ∧ pc = m.pc
  outputFailed : (m.execute i a b).fault = some .outputFailed ↔
    i = .prn ∧ ∃ r : Register, a.toNat = r ∧ ¬m.sink.fits (m.registers.get r).decimalLine
  noOther : ∀ fault, (m.execute i a b).fault = some fault →
    (∃ x pc, fault = .invalidRegister x pc) ∨ fault = .outputFailed
  unchanged : ∀ x pc, (m.execute i a b).fault = some (.invalidRegister x pc) →
    (m.execute i a b).machine = m ∧ (m.execute i a b).output = []
  /-- What the sink took is the beginning of the line. -/
  unchangedButSink : (m.execute i a b).fault = some .outputFailed →
    ∃ (r : Register) (s : Sink), a.toNat = r ∧
      (m.execute i a b).machine = { m with sink := s } ∧ s.limit = m.sink.limit ∧
      s.toList = m.sink.toList ++ (m.execute i a b).output ∧
      (m.execute i a b).output <+: (m.registers.get r).decimalLine

/-- When a step fails, and what is left of it then. -/
structure StepFailure (m : Machine) : Prop where
  illegalInstruction : ∀ opcode pc, m.step.fault = some (.illegalInstruction opcode pc) ↔
    (∀ i : Instruction, m.read m.pc ≠ i.opcode) ∧ opcode = m.read m.pc ∧ pc = m.pc
  onlyStopped : (∀ i : Instruction, m.read m.pc ≠ i.opcode) →
    m.step.machine = { m with running := false } ∧ m.step.output = []
  /-- A byte that is an opcode is executed with the two bytes behind it. -/
  executed : ∀ i : Instruction, m.read m.pc = i.opcode →
    m.step.fault = (m.fetch i).fault ∧ m.step.output = (m.fetch i).output ∧
      m.step.machine =
        if (m.fetch i).fault = none then (m.fetch i).machine
        else { (m.fetch i).machine with running := false }

/-- A call that fails otherwise than by printing is refused, and nothing has happened. -/
theorem refuses_of_fault (h : (m.execute i a b).fault = some fault) (hne : fault ≠ .outputFailed) :
    m.Refuses (m.consulted a b i) fault ∧ (m.execute i a b).Yields m (some fault) [] := by
  obtain ⟨_, hrefuses, hyields⟩ | ⟨_, -, -, hyields⟩ | ⟨_, -, -, hyields⟩ := m.execute_cases i a b
  · obtain rfl := Option.some.inj (hyields.fault.symm.trans h)
    exact ⟨hrefuses, hyields⟩
  · cases hyields.fault.symm.trans h
  · exact absurd (Option.some.inj (hyields.fault.symm.trans h)).symm hne

/-- A call that fails by printing has printed a part of the line of its register. -/
theorem prints_of_outputFailed (h : (m.execute i a b).fault = some .outputFailed) :
    ∃ r : Register, a.toNat = r ∧ ¬m.sink.fits (m.registers.get r).decimalLine ∧ i = .prn ∧
      (m.execute i a b).Yields { m with sink := m.sink.write (m.registers.get r).decimalLine }
        (some .outputFailed) (m.sink.accepted (m.registers.get r).decimalLine) := by
  obtain ⟨_, ⟨_, -, rfl⟩, hyields⟩ | ⟨_, -, -, hyields⟩ | ⟨d, hdoes, hprint, hyields⟩ :=
    m.execute_cases i a b
  -- the first two ways do not end with a full sink
  · cases hyields.fault.symm.trans h
  · cases hyields.fault.symm.trans h
  · obtain ⟨value, hd, hfits⟩ := not_canPrint_iff.mp hprint
    obtain ⟨hi, r, ha, rfl⟩ := hdoes.of_printed hd
    rw [Deed.line, hd] at hyields
    exact ⟨r, ha, hfits, hi, hyields⟩

/-- Every call that fails does so in one of two ways, and says in which. -/
theorem executeFailure (m : Machine) (i : Instruction) (a b : Byte) : m.ExecuteFailure i a b where
  invalidRegister x pc := by
    constructor
    · intro h
      obtain ⟨y, hy, hfault⟩ := (refuses_of_fault h (by simp)).1
      obtain ⟨rfl, rfl⟩ := Fault.invalidRegister.inj hfault
      exact ⟨hy, rfl⟩
    · rintro ⟨hx, rfl⟩
      exact (execute_of_error (deed_eq_error_iff.mpr ⟨x, hx, rfl⟩)).fault
  outputFailed := by
    constructor
    · intro h
      obtain ⟨r, ha, hfits, rfl, -⟩ := prints_of_outputFailed h
      exact ⟨rfl, r, ha, hfits⟩
    · -- a line that is too long makes the print fail
      rintro ⟨rfl, r, ha, hfits⟩
      have hdoes : m.Does a b .prn (.printed r (m.registers.get r)) :=
        .printed (Register.ofByte?_eq_some_iff.mpr ha)
      rw [execute_of_does hdoes]
      exact (perform_of_not_canPrint (not_canPrint_iff.mpr ⟨_, rfl, hfits⟩)).fault
  noOther fault h := by
    by_cases hne : fault = .outputFailed
    · exact .inr hne
    · obtain ⟨x, -, rfl⟩ := (refuses_of_fault h hne).1
      exact .inl ⟨x, m.pc, rfl⟩
  unchanged x pc h := by
    obtain ⟨-, hyields⟩ := refuses_of_fault h (by simp)
    exact ⟨hyields.machine, hyields.output⟩
  unchangedButSink h := by
    obtain ⟨r, ha, -, -, hyields⟩ := prints_of_outputFailed h
    refine ⟨r, _, ha, hyields.machine, rfl, ?_, ?_⟩
    · rw [hyields.output]
      exact Sink.toList_write ..
    · rw [hyields.output]
      exact Sink.accepted_isPrefix ..

/-- Every step that fails stops the machine, and changes no more than its call does. -/
theorem stepFailure (hrunning : m.running) : m.StepFailure where
  illegalInstruction opcode pc := by
    constructor
    · intro h
      obtain ⟨i, hi⟩ | hillegal := opcode_cases (m.read m.pc)
      · -- what is executed does not fail in this way
        rw [fault_step hrunning hi] at h
        obtain ⟨_, _, hfault⟩ | hfault := (m.executeFailure i _ _).noOther _ h
        · cases hfault
        · cases hfault
      · have hfault := (step_of_error (finding_of_illegal hrunning hillegal)).fault
        obtain ⟨rfl, rfl⟩ := Fault.illegalInstruction.inj (Option.some.inj (h.symm.trans hfault))
        exact ⟨hillegal, rfl, rfl⟩
    · rintro ⟨hillegal, rfl, rfl⟩
      exact (step_of_error (finding_of_illegal hrunning hillegal)).fault
  onlyStopped hillegal := by
    have hyields := step_of_error (finding_of_illegal hrunning hillegal)
    exact ⟨hyields.machine, hyields.output⟩
  executed i hi := by
    refine ⟨fault_step hrunning hi, output_step hrunning hi, ?_⟩
    cases hfault : (m.fetch i).fault with
    | none => exact machine_step_of_none hrunning hi hfault
    | some fault => exact machine_step_of_some hrunning hi hfault

/-- **Calls fail exactly when an operand, the opcode or the sink makes them, and leave nothing half
done.** -/
theorem failures_are_atomic (m : Machine) :
    (∀ i a b, m.ExecuteFailure i a b) ∧ (m.running → m.StepFailure) :=
  ⟨m.executeFailure, stepFailure⟩

/-- An addition whose operands both name no register: the first one is reported, and the machine
is only stopped. -/
theorem failures_are_atomic_add :
    let m : Machine := { fresh .unlimited with memory := .ofBytes [0xA0, 9, 8] }
    m.running ∧ m.step.fault = some (.invalidRegister 9 0) ∧ m.StepFailure :=
  ⟨rfl, by decide +kernel, (failures_are_atomic _).2 rfl⟩

end Machine

end ByteMachine
