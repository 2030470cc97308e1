import ByteMachine.Proofs.Machine.Limit

/-!
# The events of a step

A step that finds a deed, and whose sink takes what is printed, begins with a look at the machine,
prints the line of the deed if it has one, and ends with the deed in the journal
(`events_step_of_canPrint`). A step that finds no deed ends with the fault there
(`events_step_of_error`), and so does one whose sink does not take all of the line
(`events_step_of_not_canPrint`).

What a step prints can be read off the machine in front of it (`printed?`).
-/

namespace ByteMachine.Machine

variable {m : Machine} {d : Deed} {fault : Fault}

/-! ### Printed values -/

/-- The value that the next step prints, if it prints one: the content of the register that the
operand of a print instruction names. -/
def printed? (m : Machine) : Option Byte :=
  if m.running ∧ m.read m.pc = Instruction.prn.opcode then
    (Register.ofByte? (m.read (m.pc + 1))).map m.registers.get
  else
    none

/-- A step that finds a deed prints what the deed prints. -/
theorem printed?_of_ok (h : m.finding = .ok d) : m.printed? = d.printed? := by
  obtain ⟨hrunning, i, hi, hdoes⟩ := finding_eq_ok_iff.mp h
  by_cases hprn : i = .prn
  · -- the operand of a print names the register that the deed has
    subst hprn
    rw [printed?, if_pos ⟨hrunning, hi⟩]
    cases hdoes with
    | printed hr =>
      rw [hr]
      rfl
  · -- no other instruction prints
    have hother : ¬(m.running ∧ m.read m.pc = Instruction.prn.opcode) :=
      fun h => hprn (Instruction.opcode_injective (hi.symm.trans h.2))
    rw [printed?, if_neg hother]
    cases hd : d.printed? with
    | none => rfl
    | some value => exact absurd (hdoes.of_printed hd).1 hprn

/-- A step that finds no deed prints nothing. -/
theorem printed?_of_error (h : m.finding = .error fault) : m.printed? = none := by
  unfold printed?
  split
  · next hprn =>
    rw [finding_of_opcode hprn.1 hprn.2] at h
    cases hr : Register.ofByte? (m.read (m.pc + 1)) with
    | none => rfl
    | some r =>
      -- with a register to print, there would have been a deed
      cases h.symm.trans (deed_eq_ok_iff.mpr (.printed hr))
  · rfl

/-- The values that `n` steps print. -/
def printedValues (m : Machine) (n : Nat) : List Byte :=
  m.collect (fun m => m.printed?.toList) n

/-! ### Events -/

/-- What happens when a deed is performed: its line, and its entry. -/
theorem events_perform (h : m.CanPrint d) :
    (m.perform d).events.toList =
      d.printed?.toList.map (fun value => .output value.decimalLine) ++ [.noted (.did d)] := by
  unfold perform
  cases hd : d.printed? with
  | none =>
    rw [Outcome.andThen_quiet]
    rfl
  | some value =>
    have hfits := h value hd
    have hline : m.sink.accepted value.decimalLine = value.decimalLine :=
      Sink.accepted_of_fits hfits
    rw [Outcome.andThen_of_fault_none ((fault_print m value).mpr hfits), print, hline]
    rfl

/-- A step is looked at before anything else happens. -/
theorem events_step (hrunning : m.running) :
    m.step.events.toList =
      .noted (.fetched m.snapshot) :: (m.executeFetched m.snapshot).stopOnFault.events.toList := by
  rw [step_of_running hrunning]
  exact Array.toList_append

/-- **The events of a step that puts a deed into effect.** -/
theorem events_step_of_canPrint (h : m.finding = .ok d) (hprint : m.CanPrint d) :
    m.step.events.toList = .noted (.fetched m.snapshot) ::
      (m.printed?.toList.map (fun value => .output value.decimalLine) ++ [.noted (.did d)]) := by
  have hrunning := (finding_eq_ok_iff.mp h).1
  -- nothing stops the machine, so nothing is added
  have hstop : (m.perform d).stopOnFault = m.perform d := by
    rw [Outcome.stopOnFault, (perform_of_canPrint hprint).fault]
  rw [events_step hrunning, executeFetched_of_ok h, hstop, events_perform hprint, printed?_of_ok h]

/-- **The events of a step that cannot print.** The sink may have taken a part of the line. -/
theorem events_step_of_not_canPrint (h : m.finding = .ok d) (hprint : ¬m.CanPrint d) :
    m.step.events.toList = [.noted (.fetched m.snapshot), .output (m.sink.accepted d.line),
      .noted (.failed .outputFailed)] := by
  obtain ⟨value, hd, hfits⟩ := not_canPrint_iff.mp hprint
  obtain ⟨hperform, hfault⟩ := perform_of_not_fits hd hfits
  rw [events_step (finding_eq_ok_iff.mp h).1, executeFetched_of_ok h, hperform,
    Outcome.stopOnFault, hfault, Deed.line, hd]
  rfl

/-- **The events of a step that finds no deed.** -/
theorem events_step_of_error (hrunning : m.running) (h : m.finding = .error fault) :
    m.step.events.toList = [.noted (.fetched m.snapshot), .noted (.failed fault)] := by
  rw [events_step hrunning, executeFetched_of_error hrunning h]
  rfl

end ByteMachine.Machine
