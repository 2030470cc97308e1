import ByteMachine.Machine.Run
import ByteMachine.Proofs.Machine.Step

/-!
# Runs step by step

A run goes on as long as it is not over, and once it is over more steps change nothing. So the
outcome of a run that ends does not depend on the limit, as long as the limit is large enough:
`Machine.RunEnds` says after how many steps the run ends, and what comes of it. To find this out it
is enough to follow the machine to its last step (`runEnds_of_advance`).
-/

namespace ByteMachine

namespace Outcome

variable {o : Outcome} {n k : Nat}

/-! ### Counting steps -/

/-- The entries of two calls stand one behind the other. -/
theorem entries_andThen {call : Machine → Outcome} (h : o.fault = none) :
    (o.andThen call).entries = o.entries ++ (call o.machine).entries := by
  rw [andThen_of_fault_none h, entries, entries, entries, Array.toList_append,
    List.filterMap_append]

/-- The steps of two calls are counted together. -/
theorem steps_andThen {call : Machine → Outcome} (h : o.fault = none) :
    (o.andThen call).steps = o.steps + (call o.machine).steps := by
  rw [steps, entries_andThen h, List.countP_append, steps, steps]

/-- The error that is entered on a fault is not counted as a step. -/
theorem steps_stopOnFault (o : Outcome) : o.stopOnFault.steps = o.steps := by
  unfold stopOnFault
  split
  · rfl
  · simp [steps, entries]

/-- Nothing more is done by a machine that has stopped. -/
theorem isOver_of_not_running (h : o.machine.running = false) : o.isOver := by
  rw [isOver, h, Bool.not_false, Bool.or_true]

/-- Nothing more is done after a fault. -/
theorem isOver_of_fault {fault : Fault} (h : o.fault = some fault) : o.isOver := by
  rw [isOver, h, Option.isSome_some, Bool.true_or]

/-- A run goes on exactly if there is no fault and the machine is running. -/
theorem not_isOver_iff : ¬o.isOver ↔ o.fault = none ∧ o.machine.running := by
  rw [isOver, Bool.or_eq_true, not_or, Bool.not_eq_true, Option.isSome_eq_false_iff,
    Option.isNone_iff_eq_none, Bool.not_eq_true', Bool.not_eq_false]

/-! ### Going on -/

/-- What is over is not changed by going on. -/
theorem advance_of_isOver (h : o.isOver) : o.advance n = o := by
  cases n with
  | zero => rfl
  | succ n => rw [advance, if_pos h]

/-- Going on for `n` and then for `k` steps is going on for both together. -/
theorem advance_add : o.advance (n + k) = (o.advance n).advance k := by
  -- by induction on the first steps, from whatever outcome they start
  induction n generalizing o with
  | zero => rw [Nat.zero_add, advance]
  | succ n ih =>
    rw [Nat.succ_add, advance, advance]
    split
    · -- what is over now will be over then
      next h => rw [advance_of_isOver h]
    · exact ih

/-- As long as it is not over, going on by one is a step. -/
theorem advance_one (h : ¬o.isOver) : o.advance 1 = o.andThen Machine.step := by
  rw [advance, if_neg h, advance]

/-- The end of a run is noted in the journal, and nothing else comes of it. -/
theorem conclude_keeps (o : Outcome) :
    o.conclude.machine = o.machine ∧ o.conclude.fault = o.fault ∧ o.conclude.output = o.output ∧
      o.conclude.steps = o.steps := by
  unfold conclude
  cases h : o.fault with
  | none =>
    -- the note is an entry that is neither a step nor output
    refine ⟨machine_andThen h, fault_andThen h, ?_, steps_andThen h⟩
    rw [output_andThen h, output_noting, List.append_nil]
  | some fault =>
    -- a run that failed ends without a note
    rw [andThen_of_fault_some h]
    exact ⟨rfl, h, rfl, rfl⟩

end Outcome

namespace Machine

variable {m : Machine} {o : Outcome} {n k : Nat}

/-- The steps are counted by the looks, and there is none inside of a call. -/
theorem steps_execute (m : Machine) (i : Instruction) (a b : Byte) :
    (m.execute i a b).steps = 0 := by
  unfold execute
  cases m.deed i a b with
  | error fault => rfl
  | ok d =>
    -- only the writing can come in front of the entry of the deed
    show (m.perform d).steps = 0
    unfold perform
    cases d.printed? with
    | none =>
      rw [Outcome.andThen_quiet]
      rfl
    | some value =>
      cases h : (m.print value).fault with
      | none =>
        rw [Outcome.steps_andThen h]
        rfl
      | some fault =>
        rw [Outcome.andThen_of_fault_some h]
        rfl

/-- A step of a running machine is counted once. -/
theorem steps_step (h : m.running) : m.step.steps = 1 := by
  rw [step_of_running h, Outcome.steps_andThen rfl, Outcome.steps_stopOnFault]
  unfold executeFetched
  -- the look is the one that is counted; what is executed adds none
  split
  · show 1 + (m.execute _ _ _).steps = 1
    rw [steps_execute]
  · rfl

/-- A run that is not over goes on from where it is, and not only from the start. -/
theorem advance_succ (h : ¬(m.advance n).isOver) :
    m.advance (n + 1) = (m.advance n).andThen step := by
  -- `advance` peels off the first step, and here the last one is wanted
  rw [advance, Outcome.advance_add]
  exact Outcome.advance_one h

/-- What is over stays as it is. -/
theorem advance_of_le (h : (m.advance n).isOver) (hle : n ≤ k) : m.advance k = m.advance n := by
  obtain ⟨j, rfl⟩ := Nat.exists_eq_add_of_le hle
  rw [advance, Outcome.advance_add]
  exact Outcome.advance_of_isOver h

/-- What is not over has not been over before. -/
theorem not_isOver_of_le (h : ¬(m.advance n).isOver) (hle : k ≤ n) : ¬(m.advance k).isOver := by
  intro hover
  rw [advance_of_le hover hle] at h
  exact h hover

/-- Every step of a run that is not over is counted. -/
theorem steps_advance_succ (h : ¬(m.advance n).isOver) : (m.advance (n + 1)).steps = n + 1 := by
  -- by induction on the steps; a run that is not over was not over one step earlier
  induction n with
  | zero =>
    obtain ⟨hfault, hrunning⟩ := Outcome.not_isOver_iff.mp h
    rw [advance_succ h, Outcome.steps_andThen hfault, steps_step hrunning]
    rfl
  | succ n ih =>
    obtain ⟨hfault, hrunning⟩ := Outcome.not_isOver_iff.mp h
    rw [advance_succ h, Outcome.steps_andThen hfault, steps_step hrunning,
      ih (not_isOver_of_le h (Nat.le_succ n))]

/-- A run has an outcome exactly if the limit suffices for it to be over. -/
theorem run?_eq_some_iff {limit : Nat} :
    m.run? limit = some o ↔ (m.advance limit).isOver ∧ (m.advance limit).conclude = o := by
  rw [run?]
  split
  · next hover => exact ⟨fun h => ⟨hover, Option.some.inj h⟩, fun h => congrArg some h.2⟩
  · next hover => exact iff_of_false (fun h => by cases h) (fun h => hover h.1)

/-- The run of the machine ends after `n` steps, whatever larger limit it has, and leaves the
machine `m'`. -/
def RunEnds (m : Machine) (n : Nat) (m' : Machine) (fault : Option Fault)
    (output : List Byte) : Prop :=
  ∃ o : Outcome, o.steps = n ∧ o.machine = m' ∧ o.fault = fault ∧ o.output = output ∧
    ∀ limit, m.run? limit = if n ≤ limit then some o else none

/-- **A run ends with its last step.** -/
theorem runEnds_of_advance (h : ¬(m.advance n).isOver) (hover : (m.advance (n + 1)).isOver) :
    m.RunEnds (n + 1) (m.advance (n + 1)).machine (m.advance (n + 1)).fault
      (m.advance (n + 1)).output := by
  obtain ⟨hmachine, hfault, houtput, hsteps⟩ := Outcome.conclude_keeps (m.advance (n + 1))
  -- below the last step the run has no outcome, and from it on always the same
  refine ⟨_, hsteps.trans (steps_advance_succ h), hmachine, hfault, houtput, fun limit => ?_⟩
  rw [run?]
  by_cases hle : n + 1 ≤ limit
  · rw [advance_of_le hover hle, if_pos hover, if_pos hle]
  · rw [if_neg (not_isOver_of_le h (by omega)), if_neg hle]

end Machine

end ByteMachine
