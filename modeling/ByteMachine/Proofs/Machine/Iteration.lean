import ByteMachine.Proofs.Machine.Steps

/-!
# A run is a sequence of steps

A run makes the calls of a sequence of steps, up to the one with which the machine stops
(`StopsAfter`), and adds nothing of its own but the note of its end.

So its outcome is put together from those of the steps. The machine and the fault are those of the
last step (`advance_of_running`). Output and journal are parts that a chain of calls has from all of
its calls, one after the other (`Outcome.Accumulates`), and therefore a run from all of its steps
(`accumulates_advance`).

Behind its first `k` steps, a sequence goes on as the sequence of the machine that these have left
(`stepped_add`, `collect_add`). Hence a run can be interrupted after any number of steps that have
succeeded and taken up again (`RunOfSteps.split`). Behind a step that has failed it cannot: the
machine has stopped there, and another run of it succeeds.
-/

namespace ByteMachine

namespace Outcome

variable {α : Type} {part : Outcome → List α}

/-- The journal as it is read: the entries as records. -/
def records (o : Outcome) : List Record :=
  o.entries.map Entry.record

/-- A part of outcomes that a chain of calls has from all its calls, one after the other. -/
structure Accumulates (part : Outcome → List α) : Prop where
  quiet : ∀ m, part (.quiet m) = []
  andThen : ∀ {o : Outcome} {call : Machine → Outcome}, o.fault = none →
    part (o.andThen call) = part o ++ part (call o.machine)

/-- The output of a chain is written call by call. -/
theorem accumulates_output : Accumulates output where
  quiet _ := rfl
  andThen := output_andThen

/-- The journal of a chain is kept call by call. -/
theorem accumulates_records : Accumulates records where
  quiet _ := rfl
  andThen h := by
    rw [records, entries_andThen h, List.map_append]
    rfl

/-- To conclude a run adds the note of its end, if the run has not failed. -/
theorem Accumulates.conclude (hpart : Accumulates part) (o : Outcome) :
    part o.conclude =
      part o ++ if o.fault = none then part (noting o.machine (.stopped o.machine.pc)) else [] := by
  unfold Outcome.conclude
  cases hfault : o.fault with
  -- the note is the last call of the chain
  | none => rw [hpart.andThen hfault, if_pos rfl]
  | some fault => rw [andThen_of_fault_some hfault, if_neg (by simp), List.append_nil]

end Outcome

namespace Machine

variable {α : Type} {part : Outcome → List α} {m : Machine} {o o' : Outcome} {n k : Nat}

/-! ### What a sequence of steps leaves -/

/-- The fault of the last of `n` calls for a step. Without a call there is none. -/
def lastFault (m : Machine) : (n : Nat) → Option Fault
  | 0 => none
  | n + 1 => (m.stepped n).step.fault

/-- The machine stops with the `n`-th call for a step and not before. If `n` is zero, it has stopped
already. -/
structure StopsAfter (m : Machine) (n : Nat) : Prop where
  running : ∀ k < n, (m.stepped k).running
  stopped : (m.stepped n).running = false

/-- A machine that is still running has not failed. -/
theorem lastFault_of_running (h : (m.stepped n).running) : m.lastFault n = none := by
  cases n with
  | zero => rfl
  | succ n =>
    rw [stepped_succ, running_step_iff] at h
    exact h.1

/-- Behind steps that have succeeded, the last fault is that of the steps which follow. -/
theorem lastFault_add (h : ∀ j < n, (m.stepped j).step.fault = none) :
    m.lastFault (n + k) = (m.stepped n).lastFault k := by
  cases k with
  | zero =>
    -- no step follows, and the last one has succeeded
    cases n with
    | zero => rfl
    | succ n => exact h n (Nat.lt_succ_self n)
  | succ k =>
    rw [← Nat.add_assoc, lastFault, lastFault, stepped_add]

/-! ### A run in the making -/

/-- As long as the machine is running, its run is not over. -/
theorem not_isOver_of_running
    (hadvance : (m.advance n).machine = m.stepped n ∧ (m.advance n).fault = m.lastFault n)
    (hrunning : (m.stepped n).running) : ¬(m.advance n).isOver := by
  obtain ⟨hmachine, hfault⟩ := hadvance
  rw [Outcome.not_isOver_iff, hmachine, hfault]
  exact ⟨lastFault_of_running hrunning, hrunning⟩

/-- For as long as the machine is running, the run is where the sequence of steps is. -/
theorem advance_of_running (h : ∀ k < n, (m.stepped k).running) :
    (m.advance n).machine = m.stepped n ∧ (m.advance n).fault = m.lastFault n := by
  -- by induction on the steps; in front of each of them the run is not over
  induction n with
  | zero => exact ⟨rfl, rfl⟩
  | succ n ih =>
    have hbefore := ih fun k hk => h k (Nat.lt_succ_of_lt hk)
    exact advance_succ_eq (not_isOver_of_running hbefore (h n (Nat.lt_succ_self n)))

/-- **What a run accumulates is what its steps leave.** -/
theorem accumulates_advance (hpart : Outcome.Accumulates part)
    (h : ∀ k < n, (m.stepped k).running) :
    part (m.advance n) = m.collect (fun m => part m.step) n := by
  -- the last call is for a step of the machine that the others have left
  induction n with
  | zero => exact hpart.quiet m
  | succ n ih =>
    have hrunning : ∀ k < n, (m.stepped k).running := fun k hk => h k (Nat.lt_succ_of_lt hk)
    obtain ⟨hmachine, hfault⟩ := advance_of_running hrunning
    have hlast : (m.stepped n).running := h n (Nat.lt_succ_self n)
    rw [advance_succ (not_isOver_of_running ⟨hmachine, hfault⟩ hlast),
      hpart.andThen (hfault.trans (lastFault_of_running hlast)), ih hrunning, hmachine,
      collect_succ]

/-- A machine that stops has a run, and its outcome does not depend on the limit. -/
theorem StopsAfter.run?_eq (h : m.StopsAfter n) (limit : Nat) :
    m.run? limit = if n ≤ limit then some (m.advance n).conclude else none := by
  obtain ⟨hmachine, -⟩ := advance_of_running h.running
  have hover : (m.advance n).isOver := by
    refine Outcome.isOver_of_not_running ?_
    rw [hmachine]
    exact h.stopped
  rw [run?]
  by_cases hle : n ≤ limit
  · rw [advance_of_le hover hle, if_pos hover, if_pos hle]
  · -- the limit is reached while the machine is still running
    have hlt : limit < n := Nat.lt_of_not_le hle
    have hbefore := advance_of_running fun k hk => h.running k (Nat.lt_trans hk hlt)
    rw [if_neg (not_isOver_of_running hbefore (h.running limit hlt)), if_neg hle]

/-! ### A run that ends -/

/-- The outcome of a run that makes `n` steps: that of the steps, and the note of the end unless the
last of them has failed. -/
structure RunOfSteps (m : Machine) (n : Nat) (o : Outcome) : Prop where
  returns : ∀ limit, m.run? limit = if n ≤ limit then some o else none
  machine : o.machine = m.stepped n
  fault : o.fault = m.lastFault n
  output : o.output = m.collect (fun m => m.step.output) n
  log : o.records = m.collect (fun m => m.step.records) n ++
    if m.lastFault n = none then
      [{ level := .info
         origin := .machine
         text := "Program halted at 0x" ++ (m.stepped n).pc.hex }]
    else []

/-- The run of a machine that stops is made of its steps. -/
theorem StopsAfter.runOfSteps (h : m.StopsAfter n) : m.RunOfSteps n (m.advance n).conclude := by
  obtain ⟨hmachine, hfault⟩ := advance_of_running h.running
  -- the end adds nothing but its note
  obtain ⟨hmachine', hfault', houtput', -⟩ := Outcome.conclude_keeps (m.advance n)
  refine ⟨h.run?_eq, hmachine'.trans hmachine, hfault'.trans hfault, ?_, ?_⟩
  · rw [houtput', accumulates_advance Outcome.accumulates_output h.running]
  · rw [Outcome.accumulates_records.conclude,
      accumulates_advance Outcome.accumulates_records h.running, hmachine, hfault]
    rfl

/-- A machine that has made some of its steps stops after the others. -/
theorem StopsAfter.behind (h : m.StopsAfter (k + n)) : (m.stepped k).StopsAfter n where
  running j hj := by
    rw [← stepped_add]
    exact h.running (k + j) (Nat.add_lt_add_left hj k)
  stopped := by
    rw [← stepped_add]
    exact h.stopped

/-- The run `o` can be split behind its first `k` steps: what these leave and the run `o'` of the
machine behind them come to the same. -/
structure SplitsInto (m : Machine) (k : Nat) (o o' : Outcome) : Prop where
  machine : o'.machine = o.machine
  fault : o'.fault = o.fault
  output : m.collect (fun m => m.step.output) k ++ o'.output = o.output
  log : m.collect (fun m => m.step.records) k ++ o'.records = o.records

/-- **A run can be split behind any number of steps that have succeeded.** -/
theorem RunOfSteps.split (hrun : m.RunOfSteps (k + n) o)
    (hrun' : (m.stepped k).RunOfSteps n o') (hok : ∀ j < k, (m.stepped j).step.fault = none) :
    m.SplitsInto k o o' where
  machine := by rw [hrun'.machine, hrun.machine, stepped_add]
  fault := by rw [hrun'.fault, hrun.fault, lastFault_add hok]
  output := by rw [hrun'.output, hrun.output, collect_add]
  log := by
    rw [hrun'.log, hrun.log, collect_add, lastFault_add hok, stepped_add, List.append_assoc]

/-- **A run does what the steps do one by one, wherever it is split.** -/
theorem run_iterates_steps (h : m.StopsAfter n) :
    ∃ o, m.RunOfSteps n o ∧
      ∀ k ≤ n, (∀ j < k, (m.stepped j).step.fault = none) →
        ∃ o', (m.stepped k).RunOfSteps (n - k) o' ∧ m.SplitsInto k o o' := by
  have hrun := h.runOfSteps
  refine ⟨_, hrun, ?_⟩
  intro k hk hok
  -- the steps that are left when the run is taken up again
  obtain ⟨j, rfl⟩ := Nat.exists_eq_add_of_le hk
  have hrun' := h.behind.runOfSteps
  rw [Nat.add_sub_cancel_left]
  exact ⟨_, hrun', hrun.split hrun' hok⟩

/-- A run that fails with its last step, and the same run interrupted after the first one. -/
theorem run_iterates_steps_failing :
    let m : Machine :=
      { fresh .unlimited with memory := .ofBytes [0x82, 0, 42, 0x47, 0, 0x47, 8] }
    m.StopsAfter 3 ∧ m.lastFault 3 = some (.invalidRegister 8 5) ∧
      ∃ o, m.RunOfSteps 3 o ∧ ∃ o', (m.stepped 1).RunOfSteps 2 o' ∧ m.SplitsInto 1 o o' := by
  intro m
  have hstops : m.StopsAfter 3 := ⟨by decide +kernel, by decide +kernel⟩
  obtain ⟨o, hrun, hsplit⟩ := run_iterates_steps hstops
  exact ⟨hstops, by decide +kernel, o, hrun, hsplit 1 (by decide) (by decide +kernel)⟩

end Machine

end ByteMachine
