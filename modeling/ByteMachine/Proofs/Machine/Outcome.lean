import ByteMachine.Machine.Step

/-!
# The parts of chained outcomes

`Outcome.andThen` and `Outcome.stopOnFault` are the only two ways in which outcomes are put
together. This module says what each does to the machine, to the fault and to the output of an
outcome, so that no later proof has to look into the events.
-/

namespace ByteMachine.Outcome

variable {o : Outcome} {call : Machine → Outcome} {fault : Fault}

/-! ### Chaining -/

/-- After a call that succeeds the next one is made, on the machine that is left. -/
theorem andThen_of_fault_none (h : o.fault = none) :
    o.andThen call =
      ⟨(call o.machine).machine, o.events ++ (call o.machine).events, (call o.machine).fault⟩ := by
  -- the fault decides which case of the chaining applies
  obtain ⟨m, events, fault⟩ := o
  cases h
  rfl

/-- After a call that fails nothing more happens. -/
theorem andThen_of_fault_some (h : o.fault = some fault) : o.andThen call = o := by
  obtain ⟨m, events, fault⟩ := o
  cases h
  rfl

/-- A second call that does nothing is not noticed. -/
theorem andThen_quiet_right (o : Outcome) : o.andThen quiet = o := by
  obtain ⟨m, events, _ | fault⟩ := o
  · -- with no events added, the first call has succeeded alone
    simp [andThen, quiet]
  · rfl

/-- The machine is that of the second call, if there is one. -/
theorem machine_andThen (h : o.fault = none) :
    (o.andThen call).machine = (call o.machine).machine := by
  rw [andThen_of_fault_none h]

/-- The first call has not failed, so the fault is that of the second. -/
theorem fault_andThen (h : o.fault = none) : (o.andThen call).fault = (call o.machine).fault := by
  rw [andThen_of_fault_none h]

/-- A chain of calls succeeds exactly if all of them do. -/
theorem fault_andThen_eq_none_iff :
    (o.andThen call).fault = none ↔ o.fault = none ∧ (call o.machine).fault = none := by
  cases h : o.fault with
  | none => rw [fault_andThen h, eq_self_iff_true, true_and]
  -- the second call is never made
  | some fault =>
    rw [andThen_of_fault_some h, h]
    exact iff_of_false (by simp) (fun hn => by cases hn.1)

/-- What the calls write is written one after the other. -/
theorem output_andThen (h : o.fault = none) :
    (o.andThen call).output = o.output ++ (call o.machine).output := by
  rw [andThen_of_fault_none h, output, output, output, Array.toList_append, List.flatMap_append]

/-- An entry into the journal writes nothing. -/
@[simp] theorem output_noting (m : Machine) (entry : Entry) : (noting m entry).output = [] := rfl

/-! ### Stopping on a fault -/

/-- A fault is still returned after it has stopped the machine. -/
@[simp] theorem fault_stopOnFault (o : Outcome) : o.stopOnFault.fault = o.fault := by
  unfold stopOnFault
  split
  · rfl
  · rfl

/-- Without a fault the machine goes on. -/
theorem machine_stopOnFault_of_none (h : o.fault = none) :
    o.stopOnFault.machine = o.machine := by
  unfold stopOnFault
  rw [h]

/-- Nothing but the running state of the machine is changed by a fault. -/
theorem machine_stopOnFault_of_some (h : o.fault = some fault) :
    o.stopOnFault.machine = { o.machine with running := false } := by
  unfold stopOnFault
  rw [h]

/-- What has been written stays written, whether the machine is stopped or not. -/
@[simp] theorem output_stopOnFault (o : Outcome) : o.stopOnFault.output = o.output := by
  unfold stopOnFault
  split
  · rfl
  · -- the error that is entered is no output
    simp [output]

end ByteMachine.Outcome
