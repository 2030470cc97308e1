import ByteMachine.Proofs.Machine.Failure
import ByteMachine.Proofs.Machine.Run
import Mathlib.Data.Nat.Order.Lemmas
import Mathlib.Logic.Function.Iterate

/-!
# Sequences of steps

`Machine.stepped` calls for one step after the other, whatever comes of them, and `Machine.results`
are the answers. Unlike a run, such a sequence does not end: a machine that has stopped is still
there and still answers, though only that it has stopped (`results_of_not_running`). What else is
to be known about each of the steps is listed by `Machine.collect`.

* What a sequence of steps puts into the sink only grows (`toList_sink_stepped_isPrefix`).
* A run follows the sequence up to its own last step (`exists_last_step`), so what is known about
  single steps of a running machine is known about the ends of runs.
-/

namespace ByteMachine.Machine

variable {α : Type} {f : Machine → List α} {m : Machine} {d : Deed} {fault : Fault} {o : Outcome}
  {n k limit : Nat}

/-- The machine after `n` calls for a step, whether or not they fail. -/
def stepped (m : Machine) (n : Nat) : Machine :=
  (fun m => m.step.machine)^[n] m

/-- The results of the first `n` calls for a step. -/
def results (m : Machine) (n : Nat) : List (Option Fault) :=
  (List.range n).map fun k => (m.stepped k).step.fault

/-- What can be read off the machine in front of each of the next `n` steps, one after the other. -/
def collect (m : Machine) (f : Machine → List α) (n : Nat) : List α :=
  (List.range n).flatMap fun k => f (m.stepped k)

/-- No step has been made. -/
theorem stepped_zero : m.stepped 0 = m := rfl

/-- The last step is made by the machine that the others leave. -/
theorem stepped_succ : m.stepped (n + 1) = (m.stepped n).step.machine :=
  Function.iterate_succ_apply' ..

/-- The first step is made by the machine itself, and the others by what it leaves. -/
theorem stepped_succ' : m.stepped (n + 1) = m.step.machine.stepped n :=
  Function.iterate_succ_apply ..

/-- Steps made one after the other are counted together. -/
theorem stepped_add : m.stepped (n + k) = (m.stepped n).stepped k := by
  rw [Nat.add_comm]
  exact Function.iterate_add_apply ..

/-- The last step adds what can be read off in front of it. -/
theorem collect_succ : m.collect f (n + 1) = m.collect f n ++ f (m.stepped n) := by
  rw [collect, List.range_succ, List.flatMap_append, List.flatMap_singleton]
  rfl

/-- What is collected splits wherever the steps do. -/
theorem collect_add : m.collect f (n + k) = m.collect f n ++ (m.stepped n).collect f k := by
  induction k with
  | zero => exact (List.append_nil _).symm
  | succ k ih =>
    rw [← Nat.add_assoc, collect_succ, ih, collect_succ, stepped_add, List.append_assoc]

/-- The first result is that of the next step. -/
theorem results_succ : m.results (n + 1) = m.step.fault :: m.step.machine.results n := by
  rw [results, List.range_succ_eq_map, List.map_cons, List.map_map]
  rfl

/-! ### After the stop -/

/-- A step of a machine that has stopped fails, and nothing happens. -/
theorem step_of_not_running (h : m.running = false) : m.step = .failing m .halted := by
  rw [step, h]
  rfl

/-- A machine that has stopped stays as it is. -/
theorem stepped_of_not_running (h : m.running = false) : m.stepped n = m := by
  have hfixed : m.step.machine = m := by
    rw [step_of_not_running h]
    rfl
  exact Function.iterate_fixed hfixed n

/-- A machine that has stopped answers every further call with the same fault. -/
theorem results_of_not_running (h : m.running = false) :
    m.results n = List.replicate n (some .halted) := by
  have hresult (k : Nat) : (m.stepped k).step.fault = some .halted := by
    rw [stepped_of_not_running h, step_of_not_running h]
    rfl
  simp only [results, hresult, List.map_const', List.length_range]

/-! ### Why a step stops the machine -/

/-- A step fails because it finds no deed, or because it cannot print. -/
theorem finding_of_fault (h : m.step.fault = some fault) :
    m.finding = .error fault ∨
      fault = .outputFailed ∧ ∃ d, m.finding = .ok d ∧ ¬m.CanPrint d := by
  cases hfinding : m.finding with
  | error fault' =>
    have hfault := (step_of_error hfinding).fault
    exact .inl (congrArg Except.error (Option.some.inj (hfault.symm.trans h)))
  | ok d =>
    by_cases hprint : m.CanPrint d
    · -- nothing is left that could have failed
      cases (step_of_canPrint hfinding hprint).fault.symm.trans h
    · have hfault := (step_of_not_canPrint hfinding hprint).fault
      exact .inr ⟨(Option.some.inj (hfault.symm.trans h)).symm, d, rfl, hprint⟩

/-- A step succeeds if it finds a deed and can print. -/
theorem finding_of_ok (h : m.step.fault = none) : ∃ d, m.finding = .ok d ∧ m.CanPrint d := by
  cases hfinding : m.finding with
  | error fault => cases h.symm.trans (step_of_error hfinding).fault
  | ok d =>
    refine ⟨d, rfl, ?_⟩
    by_contra hprint
    cases h.symm.trans (step_of_not_canPrint hfinding hprint).fault

/-- Only a machine that has stopped answers that it has. -/
theorem fault_step_eq_halted_iff : m.step.fault = some .halted ↔ m.running = false := by
  constructor
  · intro h
    by_contra hrunning
    rw [Bool.not_eq_false] at hrunning
    obtain hfinding | ⟨hfault, -⟩ := finding_of_fault h
    · -- a running machine finds a bad byte or a bad operand, which are other faults
      obtain ⟨-, hfault⟩ | ⟨_, -, _, -, hfault⟩ := (finding_eq_error_iff hrunning).mp hfinding
      all_goals cases hfault
    · cases hfault
  · intro h
    rw [step_of_not_running h]
    rfl

/-- A machine that has failed is not running. -/
theorem not_running_of_fault (h : m.step.fault = some fault) : m.step.machine.running = false := by
  -- whatever the reason is, the machine is stopped on the fault
  obtain hfinding | ⟨-, d, hfinding, hprint⟩ := finding_of_fault h
  · rw [(step_of_error hfinding).machine]
  · rw [(step_of_not_canPrint hfinding hprint).machine]

/-- No deed starts a machine, and only one stops it. -/
theorem running_after_iff (h : m.finding = .ok d) :
    (m.after d).running ↔ m.read m.pc ≠ Instruction.hlt.opcode := by
  obtain ⟨hrunning, i, hi, hdoes⟩ := finding_eq_ok_iff.mp h
  rw [hi]
  -- both sides are false for the halt, and true for all others
  cases hdoes with
  | halted => exact iff_of_false (fun h => by cases h) (fun h => h rfl)
  | returned | printed | pushed | popped | called | jumped =>
    exact iff_of_true hrunning (by decide)
  | equalTaken | equalNotTaken | notEqualTaken | notEqualNotTaken =>
    exact iff_of_true hrunning (by decide)
  | assigned | added | multiplied | compared => exact iff_of_true hrunning (by decide)

/-- **A machine is running after a step exactly if the step has succeeded and was no halt.** -/
theorem running_step_iff :
    m.step.machine.running ↔ m.step.fault = none ∧ m.read m.pc ≠ Instruction.hlt.opcode := by
  cases hfault : m.step.fault with
  | some fault =>
    rw [not_running_of_fault hfault]
    exact iff_of_false Bool.false_ne_true (fun h => by cases h.1)
  | none =>
    obtain ⟨d, hfinding, hprint⟩ := finding_of_ok hfault
    rw [eq_self_iff_true, true_and, (step_of_canPrint hfinding hprint).machine]
    exact running_after_iff hfinding

/-! ### The sink -/

/-- A line that can be printed is taken as a whole. -/
theorem accepted_line (h : m.CanPrint d) : m.sink.accepted d.line = d.line := by
  unfold Deed.line
  cases hd : d.printed? with
  | none => exact Sink.accepted_nil _
  | some value => exact Sink.accepted_of_fits (h value hd)

/-- **The sink takes what the step prints, and keeps what it has.** -/
theorem sink_step (m : Machine) :
    m.step.machine.sink.limit = m.sink.limit ∧
      m.step.machine.sink.toList = m.sink.toList ++ m.step.output := by
  -- a fault that is found prints nothing, a deed prints its line or the beginning of it
  cases hfinding : m.finding with
  | error fault =>
    have hyields := step_of_error hfinding
    rw [hyields.machine, hyields.output]
    exact ⟨rfl, (List.append_nil _).symm⟩
  | ok d =>
    by_cases hprint : m.CanPrint d
    · have hyields := step_of_canPrint hfinding hprint
      rw [hyields.machine, hyields.output]
      refine ⟨rfl, (Sink.toList_write ..).trans ?_⟩
      rw [accepted_line hprint]
    · have hyields := step_of_not_canPrint hfinding hprint
      rw [hyields.machine, hyields.output]
      exact ⟨rfl, Sink.toList_write ..⟩

/-- A step adds its output to what has been taken. -/
theorem toList_sink_stepped_succ :
    (m.stepped (n + 1)).sink.toList = (m.stepped n).sink.toList ++ (m.stepped n).step.output := by
  rw [stepped_succ]
  exact (sink_step _).2

/-- The limit of the sink stays the same. -/
theorem limit_sink_stepped : (m.stepped n).sink.limit = m.sink.limit := by
  induction n with
  | zero => rfl
  | succ n ih => rw [stepped_succ, (sink_step _).1, ih]

/-- What has been taken is never given back. -/
theorem toList_sink_stepped_isPrefix (h : k ≤ n) :
    (m.stepped k).sink.toList <+: (m.stepped n).sink.toList := by
  -- by induction on the steps behind the first `k`, each of which adds its own output
  induction h with
  | refl => exact List.prefix_rfl
  | step _ ih =>
    rw [toList_sink_stepped_succ]
    exact ih.trans (List.prefix_append ..)

/-! ### The last step of a run -/

/-- As long as it is not over, a run is where the steps lead. -/
theorem machine_advance (h : ¬(m.advance n).isOver) : (m.advance n).machine = m.stepped n := by
  induction n with
  | zero => rfl
  | succ n ih =>
    -- the steps in front of the last one have left the run going on
    have hn : ¬(m.advance n).isOver := not_isOver_of_le h (Nat.le_succ n)
    obtain ⟨hfault, -⟩ := Outcome.not_isOver_iff.mp hn
    rw [advance_succ hn, Outcome.machine_andThen hfault, ih hn, stepped_succ]

/-- The next step of a run that is not over decides about its fault. -/
theorem advance_succ_eq (h : ¬(m.advance n).isOver) :
    (m.advance (n + 1)).machine = m.stepped (n + 1) ∧
      (m.advance (n + 1)).fault = (m.stepped n).step.fault := by
  obtain ⟨hfault, -⟩ := Outcome.not_isOver_iff.mp h
  rw [advance_succ h, Outcome.machine_andThen hfault, Outcome.fault_andThen hfault,
    machine_advance h]
  exact ⟨stepped_succ.symm, rfl⟩

/-- **A run is where its own steps lead**, however many more of them it might have made. -/
theorem machine_advance_eq (m : Machine) (n : Nat) :
    (m.advance n).machine = m.stepped (m.advance n).steps := by
  induction n with
  | zero => rfl
  | succ n ih =>
    by_cases hover : (m.advance n).isOver
    · -- no further step is made
      rw [advance_of_le hover (Nat.le_succ n)]
      exact ih
    · rw [(advance_succ_eq hover).1, steps_advance_succ hover]

/-- A run leaves the machine where its own steps lead. -/
theorem machine_of_run? (h : m.run? limit = some o) : o.machine = m.stepped o.steps := by
  obtain ⟨-, rfl⟩ := run?_eq_some_iff.mp h
  obtain ⟨hmachine, -, -, hsteps⟩ := Outcome.conclude_keeps (m.advance limit)
  rw [hmachine, hsteps]
  exact machine_advance_eq m limit

/-- **A run of a running machine ends with a step.** All steps before it have left the machine
running, and its result is the result of the run. -/
theorem exists_last_step (hrunning : m.running) (hrun : m.run? limit = some o) :
    ∃ n, (m.stepped n).running ∧ (m.stepped n).step.isOver ∧
      o.machine = (m.stepped n).step.machine ∧ o.fault = (m.stepped n).step.fault := by
  obtain ⟨hover, rfl⟩ := run?_eq_some_iff.mp hrun
  have hstart : ¬(m.advance 0).isOver := Outcome.not_isOver_iff.mpr ⟨rfl, hrunning⟩
  -- the step after which the run is over for the first time
  obtain ⟨n, hn, hlast⟩ := Nat.exists_not_and_succ_of_not_zero_of_exists
    (p := fun n => (m.advance n).isOver) hstart ⟨limit, hover⟩
  -- more steps than these are not made, whatever the limit is
  have hend : m.advance limit = m.advance (n + 1) := by
    obtain hle | hle := Nat.le_total limit (n + 1)
    · exact (advance_of_le hover hle).symm
    · exact advance_of_le hlast hle
  have hrunning' : (m.stepped n).running := by
    rw [← machine_advance hn]
    exact (Outcome.not_isOver_iff.mp hn).2
  obtain ⟨hmachine, hfault⟩ := advance_succ_eq hn
  rw [stepped_succ] at hmachine
  obtain ⟨hmachine', hfault', -⟩ := Outcome.conclude_keeps (m.advance limit)
  refine ⟨n, hrunning', ?_, ?_, ?_⟩
  · rw [Outcome.isOver, ← hmachine, ← hfault]
    exact hlast
  · rw [hmachine', hend, hmachine]
  · rw [hfault', hend, hfault]

end ByteMachine.Machine
