import ByteMachine.Proofs.Machine.Calls
import ByteMachine.Proofs.Machine.Steps

/-!
# Halting is for good

Nothing starts a machine that has stopped: no call from outside (`Returns.not_running`), and no
step. So the results of a sequence of steps fall into three parts (`exists_resultShape`). First the
steps succeed; then one of them halts or fails; from there on the machine answers that it has
stopped.
-/

namespace ByteMachine.Machine

variable {m m' : Machine} {i : Instruction} {a b : Byte} {c : Call} {o : Outcome} {n : Nat}

/-- The next step succeeds, and what it executes is a halt. -/
def ExecutesHalt (m : Machine) : Prop :=
  m.step.fault = none ∧ m.read m.pc = Instruction.hlt.opcode

/-! ### Calls -/

/-- A machine that is running after an instruction was running before it. -/
theorem running_of_execute (h : (m.execute i a b).machine.running) : m.running := by
  obtain ⟨_, -, hyields⟩ | ⟨d, hdoes, -, hyields⟩ | ⟨_, -, -, hyields⟩ := m.execute_cases i a b
  · rw [hyields.machine] at h
    exact h
  · rw [hyields.machine] at h
    -- a halt leaves no running machine, and no other deed changes whether it is running
    cases hdoes with
    | halted => cases h
    | _ => exact h
  · rw [hyields.machine] at h
    exact h

/-- A run of a machine that has stopped returns at once. -/
theorem run?_of_not_running (h : m.running = false) (limit : Nat) :
    m.run? limit = some (Outcome.quiet m).conclude := by
  have hover : (Outcome.quiet m).isOver := Outcome.isOver_of_not_running h
  rw [run?, advance, Outcome.advance_of_isOver hover, if_pos hover]

/-- **No call starts a machine that has stopped.** -/
theorem Returns.not_running (h : m.Returns c o) (hm : m.running = false) :
    o.machine.running = false := by
  cases h with
  | step =>
    rw [step_of_not_running hm]
    exact hm
  | run hrun =>
    rw [run?_of_not_running hm] at hrun
    obtain rfl := Option.some.inj hrun
    rw [(Outcome.conclude_keeps _).1]
    exact hm
  | execute i a b =>
    rw [← Bool.not_eq_true] at hm ⊢
    exact mt running_of_execute hm
  -- a program is loaded or refused, and neither makes the machine run
  | load program =>
    unfold Machine.load
    split
    · exact hm
    · exact hm
  | read | write | trace | compare | clearFlags => exact hm

/-! ### Sequences of steps -/

/-- The results of `n` steps, of which the first `oks` succeed, one may fail, and the others find
the machine stopped. -/
structure ResultShape (m : Machine) (n oks : Nat) (failure : Option Fault) (rest : Nat) : Prop where
  results : m.results n =
    List.replicate oks none ++ (failure.toList.map some ++ List.replicate rest (some .halted))
  failure_ne : failure ≠ some .halted
  /-- A halt is the last step that succeeds, and no step fails behind it. -/
  halt : ∀ k < oks, (m.stepped k).ExecutesHalt → k + 1 = oks ∧ failure = none
  /-- Something has stopped the machine. -/
  stopped : rest ≠ 0 → failure ≠ none ∨ ∃ k, k + 1 = oks ∧ (m.stepped k).ExecutesHalt

/-- The results of a machine that the first step leaves running go on as those of the machine behind
it. -/
theorem ResultShape.cons {oks rest : Nat} {failure : Option Fault} (hok : m.step.fault = none)
    (hgo : ¬m.ExecutesHalt) (h : m.step.machine.ResultShape n oks failure rest) :
    m.ResultShape (n + 1) (oks + 1) failure rest where
  results := by
    rw [results_succ, hok, h.results]
    rfl
  failure_ne := h.failure_ne
  halt k hk hhalt := by
    cases k with
    | zero => exact absurd hhalt hgo
    | succ k =>
      rw [stepped_succ'] at hhalt
      obtain ⟨hlast, hnone⟩ := h.halt k (Nat.lt_of_succ_lt_succ hk) hhalt
      exact ⟨congrArg (· + 1) hlast, hnone⟩
  stopped hrest := by
    obtain hfailure | ⟨k, hlast, hhalt⟩ := h.stopped hrest
    · exact .inl hfailure
    · refine .inr ⟨k + 1, congrArg (· + 1) hlast, ?_⟩
      rw [stepped_succ']
      exact hhalt

/-- A step that fails is the only one to do so, since the others find the machine stopped. -/
theorem resultShape_of_fault {fault : Fault} (hrunning : m.running)
    (hfault : m.step.fault = some fault) : m.ResultShape (n + 1) 0 (some fault) n where
  results := by
    rw [results_succ, hfault, results_of_not_running (not_running_of_fault hfault)]
    rfl
  failure_ne := by
    -- a machine that is running does not answer that it has stopped
    rintro ⟨⟩
    rw [fault_step_eq_halted_iff, hrunning] at hfault
    cases hfault
  halt k hk := absurd hk (Nat.not_lt_zero k)
  stopped _ := .inl (by simp)

/-- A step that halts is the last one to succeed. -/
theorem resultShape_of_halt (hhalt : m.ExecutesHalt) : m.ResultShape (n + 1) 1 none n where
  results := by
    -- without a fault the machine has stopped, and then all further steps find it so
    have hstopped : m.step.machine.running = false := by
      rw [← Bool.not_eq_true, running_step_iff]
      exact fun h => h.2 hhalt.2
    rw [results_succ, hhalt.1, results_of_not_running hstopped]
    rfl
  failure_ne := by simp
  halt k hk _ := by
    obtain rfl := Nat.lt_one_iff.mp hk
    exact ⟨rfl, rfl⟩
  stopped _ := .inr ⟨0, rfl, hhalt⟩

/-- **The steps of a running machine succeed until one halts or fails, and then find the machine
stopped.** -/
theorem exists_resultShape (hrunning : m.running) (n : Nat) :
    ∃ oks failure rest, m.ResultShape n oks failure rest := by
  -- by induction on the number of steps; the first step decides which of the three parts begins
  induction n generalizing m with
  | zero =>
    refine ⟨0, none, 0, rfl, by simp, ?_, ?_⟩
    · intro k hk
      exact absurd hk (Nat.not_lt_zero k)
    · exact fun h => absurd rfl h
  | succ n ih =>
    cases hfault : m.step.fault with
    | some fault => exact ⟨0, some fault, n, resultShape_of_fault hrunning hfault⟩
    | none =>
      by_cases hhalt : m.read m.pc = Instruction.hlt.opcode
      · exact ⟨1, none, n, resultShape_of_halt ⟨hfault, hhalt⟩⟩
      · -- the machine behind the step is running, and the sequence goes on from there
        obtain ⟨oks, failure, rest, h⟩ := ih (running_step_iff.mpr ⟨hfault, hhalt⟩)
        exact ⟨oks + 1, failure, rest, h.cons hfault fun hexecutes => hhalt hexecutes.2⟩

/-! ### For good -/

/-- Once the machine has stopped, it has stopped for good. -/
structure HaltsForGood (m : Machine) : Prop where
  /-- Among any calls, the machine does not come to run again. -/
  calls : ∀ {cs cs' : List Call} {m₁ m₂ : Machine}, m.LeadsTo cs m₁ → m₁.LeadsTo cs' m₂ →
    m₂.running → m₁.running
  results : m.running → ∀ n, ∃ oks failure rest, m.ResultShape n oks failure rest
  running : ∀ n, (m.stepped (n + 1)).running ↔
    (m.stepped n).step.fault = none ∧ ¬(m.stepped n).ExecutesHalt
  step : m.step.fault = some .halted → m.step.machine = m ∧ m.step.output = []
  run : m.running = false → ∀ limit, ∃ o, m.run? limit = some o ∧ o.fault = none ∧
    o.machine = m ∧ o.output = []

/-- **Halting is for good.** -/
theorem haltsForGood (m : Machine) : m.HaltsForGood where
  calls _ hcs' hrunning := by
    -- once stopped, the machine would have stayed so
    by_contra hstopped
    rw [Bool.not_eq_true] at hstopped
    have hstays := hcs'.preserves (fun _ _ _ hreturns => hreturns.not_running) hstopped
    rw [hstays] at hrunning
    cases hrunning
  results := exists_resultShape
  running n := by
    rw [stepped_succ, running_step_iff]
    refine and_congr_right fun hok => not_congr ?_
    exact (and_iff_right hok).symm
  step h := by
    have hstopped := fault_step_eq_halted_iff.mp h
    rw [step_of_not_running hstopped]
    exact ⟨rfl, rfl⟩
  run h limit := by
    obtain ⟨hmachine, hfault, houtput, -⟩ := Outcome.conclude_keeps (Outcome.quiet m)
    exact ⟨_, run?_of_not_running h limit, hfault, hmachine, houtput⟩

/-- A machine that halts at once, whatever is called for afterwards. -/
theorem haltsForGood_halt :
    let m : Machine := { fresh .unlimited with memory := .ofBytes [0x01] }
    m.running ∧ (∃ oks failure rest, m.ResultShape 3 oks failure rest) ∧
      m.results 3 = [none, some .halted, some .halted] ∧
      ∀ m', m.step.machine.LeadsTo [.write 1 0x01, .step, .run] m' → ¬m'.running := by
  intro m
  have hstep : m.LeadsTo [.step] m.step.machine := .cons .step (.nil _)
  refine ⟨rfl, (haltsForGood m).results rfl 3, by decide +kernel, fun m' h hrunning => ?_⟩
  have hbefore : m.step.machine.running := (haltsForGood m).calls hstep h hrunning
  exact absurd hbefore (by decide +kernel)

end ByteMachine.Machine
