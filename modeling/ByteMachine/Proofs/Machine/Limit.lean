import ByteMachine.Proofs.Machine.Steps

/-!
# Sinks with a limit

Output never feeds back into the machine. To see this, a machine with an unlimited sink is compared
to the same machine with a limit (`Machine.limitedTo`). As long as the limit is not exceeded, each
step of the one is the same step of the other (`step_limitedTo`), and so they go on together
(`stepped_limitedTo`). The step that exceeds the limit prints, and the limited machine fails there
with nothing changed but its sink (`step_limitedTo_of_exceeds`). Then it has stopped.

`limit_cuts_run` puts this together. Where the limit falls is of no importance: inside a number, in
front of the end of its line, or between two lines.
-/

namespace ByteMachine.Machine

variable {m : Machine} {d : Deed} {limit n k : Nat}

/-- The same machine with a sink that takes `limit` bytes in all. -/
def limitedTo (m : Machine) (limit : Nat) : Machine :=
  { m with sink := m.sink.withLimit limit }

/-- The machines are the same, apart from the limits of their sinks. -/
structure Agrees (m m' : Machine) : Prop where
  memory : m'.memory = m.memory
  registers : m'.registers = m.registers
  pc : m'.pc = m.pc
  flags : m'.flags = m.flags
  running : m'.running = m.running
  output : m'.sink.toList = m.sink.toList

/-- For `n` steps the machines give the same results, and stay the same. -/
structure AgreesFor (m m' : Machine) (n : Nat) : Prop where
  results : m'.results n = m.results n
  machines : ∀ k ≤ n, (m.stepped k).Agrees (m'.stepped k)

/-- The limit falls into the line that the machine prints in the step behind the first `k`. -/
structure CutAt (m : Machine) (limit k : Nat) (r : Register) : Prop where
  /-- The machine prints the content of `r`. -/
  prints : (m.stepped k).read (m.stepped k).pc = Instruction.prn.opcode ∧
    ((m.stepped k).read ((m.stepped k).pc + 1)).toNat = r ∧
    (m.stepped (k + 1)).sink.toList =
      (m.stepped k).sink.toList ++ ((m.stepped k).registers.get r).decimalLine
  exceeds : (m.stepped k).sink.toList.length ≤ limit ∧
    limit < (m.stepped (k + 1)).sink.toList.length
  /-- With the limit, the step fails because the sink is full. -/
  fails : ∃ fault, ((m.limitedTo limit).stepped k).step.fault = some fault ∧
    fault.message = "Failed to write output" ∧
    fault.chain = ["Failed to write output", Sink.fullMessage]
  memory : ((m.limitedTo limit).stepped (k + 1)).memory = (m.stepped k).memory
  registers : ((m.limitedTo limit).stepped (k + 1)).registers = (m.stepped k).registers
  flags : ((m.limitedTo limit).stepped (k + 1)).flags = (m.stepped k).flags
  pc : ((m.limitedTo limit).stepped (k + 1)).pc = (m.stepped k).pc
  stopped : ((m.limitedTo limit).stepped (k + 1)).running = false
  output : ((m.limitedTo limit).stepped (k + 1)).sink.toList =
    (m.stepped (k + 1)).sink.toList.take limit
  /-- It does not matter in which pieces the line is handed over. -/
  pieces : ∀ pieces : List (List Byte),
    pieces.flatten = ((m.stepped k).registers.get r).decimalLine →
      ((m.limitedTo limit).stepped k).sink.writePieces pieces =
        (((m.limitedTo limit).stepped (k + 1)).sink, false)
  /-- All that comes after it changes nothing. -/
  later : ∀ j, k < j → ((m.limitedTo limit).stepped j).step.fault = some .halted ∧
    (m.limitedTo limit).stepped j = (m.limitedTo limit).stepped (k + 1)

/-! ### One step -/

/-- What fits into the sink can be printed. -/
theorem canPrint_of_fits (h : m.sink.fits d.line) : m.CanPrint d := by
  intro value hd
  rwa [Deed.line, hd] at h

/-- Where there is no limit, everything can be printed. -/
theorem canPrint_of_unlimited (hfree : m.sink.limit = none) : m.CanPrint d :=
  canPrint_of_fits (Sink.fits_of_unlimited hfree)

/-- That the sink is full is found by the printing only, and not in front of it. -/
theorem finding_ne_outputFailed : m.finding ≠ .error .outputFailed := by
  intro h
  cases hrunning : m.running with
  | false => cases (finding_of_not_running hrunning).symm.trans h
  -- a running machine reports its opcode or an operand
  | true =>
    obtain ⟨-, hfault⟩ | ⟨i, -, x, -, hfault⟩ := (finding_eq_error_iff hrunning).mp h
    · cases hfault
    · cases hfault

/-- Without a limit, no write fails. -/
theorem fault_step_ne_outputFailed (hfree : m.sink.limit = none) :
    m.step.fault ≠ some .outputFailed := by
  intro h
  obtain hfinding | ⟨-, d, -, hprint⟩ := finding_of_fault h
  · exact finding_ne_outputFailed hfinding
  · exact hprint (canPrint_of_unlimited hfree)

/-- What a step finds does not depend on the limit. -/
theorem finding_limitedTo : (m.limitedTo limit).finding = m.finding :=
  finding_with_sink ..

section

variable (hfree : m.sink.limit = none)

include hfree

/-- A deed whose line fits leaves the same machine, with the limit. -/
theorem after_limitedTo (hfits : (m.limitedTo limit).sink.fits d.line) :
    (m.limitedTo limit).after d = (m.after d).limitedTo limit := by
  have hwrite : (m.limitedTo limit).sink.write d.line = (m.sink.write d.line).withLimit limit :=
    Sink.write_withLimit_of_fits hfree hfits
  rw [after, hwrite, limitedTo, apply_with_sink]
  rfl

/-- **A step that stays below the limit is the same step with the limit.** -/
theorem step_limitedTo (hfits : m.step.machine.sink.toList.length ≤ limit) :
    (m.limitedTo limit).step.Yields (m.step.machine.limitedTo limit) m.step.fault
      m.step.output := by
  cases hfinding : m.finding with
  | error fault =>
    have hyields := step_of_error hfinding
    rw [hyields.machine, hyields.fault, hyields.output]
    exact step_of_error (finding_limitedTo.trans hfinding)
  | ok d =>
    have hyields := step_of_canPrint hfinding (canPrint_of_unlimited hfree)
    -- what the sink holds after the step fits below the limit
    have hline : (m.limitedTo limit).sink.fits d.line := by
      refine Sink.fits_withLimit_iff.mpr ?_
      rw [← hyields.output, ← (sink_step m).2]
      exact hfits
    rw [hyields.machine, hyields.fault, hyields.output, ← after_limitedTo hfree hline]
    exact step_of_canPrint (finding_limitedTo.trans hfinding) (canPrint_of_fits hline)

/-- **The step that exceeds the limit prints, and fails with the limit.** -/
theorem step_limitedTo_of_exceeds (hroom : m.sink.toList.length ≤ limit)
    (hexceeds : limit < m.step.machine.sink.toList.length) :
    ∃ r : Register, m.read m.pc = Instruction.prn.opcode ∧ (m.read (m.pc + 1)).toNat = r ∧
      m.step.output = (m.registers.get r).decimalLine ∧
      ¬(m.limitedTo limit).sink.fits (m.registers.get r).decimalLine ∧
      (m.limitedTo limit).step.Yields
        { m with
          sink := (m.limitedTo limit).sink.write (m.registers.get r).decimalLine
          running := false }
        (some .outputFailed)
        ((m.limitedTo limit).sink.accepted (m.registers.get r).decimalLine) := by
  rw [(sink_step m).2] at hexceeds
  cases hfinding : m.finding with
  | error fault =>
    -- nothing is printed, so the limit is not exceeded
    rw [(step_of_error hfinding).output, List.append_nil] at hexceeds
    omega
  | ok d =>
    -- without the limit the whole line is printed
    have houtput := (step_of_canPrint hfinding (canPrint_of_unlimited hfree)).output
    rw [houtput] at hexceeds
    cases hd : d.printed? with
    | none =>
      rw [Deed.line, hd, List.append_nil] at hexceeds
      omega
    -- what is printed is the content of the register that the instruction names
    | some value =>
      obtain ⟨-, i, hi, hdoes⟩ := finding_eq_ok_iff.mp hfinding
      obtain ⟨rfl, r, hr, rfl⟩ := hdoes.of_printed hd
      have hline : d.line = (m.registers.get r).decimalLine := by rw [Deed.line, hd]
      have hfits : ¬(m.limitedTo limit).sink.fits (m.registers.get r).decimalLine := by
        rw [← hline]
        exact mt Sink.fits_withLimit_iff.mp (Nat.not_le.mpr hexceeds)
      have hyields := step_of_not_canPrint (finding_limitedTo.trans hfinding)
        (not_canPrint_iff.mpr ⟨_, hd, hfits⟩)
      rw [hline] at hyields
      exact ⟨r, hi, hr, houtput.trans hline, hfits, hyields⟩

end

/-! ### Sequences of steps -/

/-- The limit is no difference between machines. -/
theorem agrees_limitedTo (m : Machine) (limit : Nat) : m.Agrees (m.limitedTo limit) :=
  ⟨rfl, rfl, rfl, rfl, rfl, rfl⟩

/-- What the sink holds does not get less. -/
theorem length_sink_stepped_le (h : k ≤ n) :
    (m.stepped k).sink.toList.length ≤ (m.stepped n).sink.toList.length :=
  (toList_sink_stepped_isPrefix h).length_le

section

variable (hfree : m.sink.limit = none)

include hfree

/-- **Below the limit, the two machines go on together.** -/
theorem stepped_limitedTo (hfits : (m.stepped n).sink.toList.length ≤ limit) :
    (m.limitedTo limit).stepped n = (m.stepped n).limitedTo limit := by
  -- what the sink holds only grows, so before the last step it was below the limit as well
  induction n with
  | zero => rfl
  | succ n ih =>
    have hbefore := (length_sink_stepped_le (Nat.le_succ n)).trans hfits
    rw [stepped_succ] at hfits
    rw [stepped_succ, ih hbefore, stepped_succ]
    exact (step_limitedTo (limit_sink_stepped.trans hfree) hfits).machine

/-- Below the limit, the limited machine does the same. -/
theorem agreesFor_limitedTo (hfits : (m.stepped n).sink.toList.length ≤ limit) :
    m.AgreesFor (m.limitedTo limit) n where
  results := by
    -- the fault of a step depends on the limit only if the step exceeds it
    refine List.map_congr_left fun k hk => ?_
    have hlast := (length_sink_stepped_le (List.mem_range.mp hk)).trans hfits
    have hbefore := (length_sink_stepped_le (Nat.le_succ k)).trans hlast
    rw [stepped_succ] at hlast
    rw [stepped_limitedTo hfree hbefore]
    exact (step_limitedTo (limit_sink_stepped.trans hfree) hlast).fault
  machines k hk := by
    rw [stepped_limitedTo hfree ((length_sink_stepped_le hk).trans hfits)]
    exact agrees_limitedTo ..

/-- Where the limit is exceeded for the first time, the limited machine is cut off. -/
theorem exists_cutAt (hroom : (m.stepped k).sink.toList.length ≤ limit)
    (hexceeds : limit < (m.stepped (k + 1)).sink.toList.length) : ∃ r, m.CutAt limit k r := by
  have htogether := stepped_limitedTo hfree hroom
  -- the step itself, from where the two machines are still together
  have hexceeds' := hexceeds
  rw [stepped_succ] at hexceeds'
  obtain ⟨r, hi, hr, houtput, hfits, hyields⟩ :=
    step_limitedTo_of_exceeds (limit_sink_stepped.trans hfree) hroom hexceeds'
  have hprinted : (m.stepped (k + 1)).sink.toList =
      (m.stepped k).sink.toList ++ ((m.stepped k).registers.get r).decimalLine := by
    rw [toList_sink_stepped_succ, houtput]
  rw [← htogether] at hfits hyields
  have hcut := hyields.machine
  rw [← stepped_succ] at hcut
  have hstopped : ((m.limitedTo limit).stepped (k + 1)).running = false := by rw [hcut]
  refine ⟨r, ?_⟩
  exact {
    prints := ⟨hi, hr, hprinted⟩
    exceeds := ⟨hroom, hexceeds⟩
    fails := ⟨.outputFailed, hyields.fault, rfl, rfl⟩
    memory := by rw [hcut]
    registers := by rw [hcut]
    flags := by rw [hcut]
    pc := by rw [hcut]
    stopped := hstopped
    -- the line is cut off where the limit is
    output := by
      rw [hcut, hprinted, htogether]
      exact Sink.toList_write_withLimit hroom
    -- with any pieces, the sink takes what it takes of the whole line
    pieces := by
      intro pieces hpieces
      have hempty : ((m.limitedTo limit).stepped k).sink.fits [] := by
        rw [htogether]
        refine Sink.fits_withLimit_iff.mpr ?_
        rw [List.append_nil]
        exact hroom
      rw [hcut, Sink.writePieces_eq hempty, hpieces, Bool.eq_false_iff.mpr hfits]
    -- the machine has stopped and stays as it is
    later := by
      intro j hj
      obtain ⟨i, rfl⟩ := Nat.exists_eq_add_of_lt hj
      have hlater : k + i + 1 = k + 1 + i := Nat.add_right_comm k i 1
      rw [hlater, stepped_add, stepped_of_not_running hstopped, step_of_not_running hstopped]
      exact ⟨rfl, rfl⟩ }

end

/-- **A full sink cuts the run and nothing else.** If what the machine prints in `n` steps stays
below the limit, the limit makes no difference. Otherwise it makes none up to the line that exceeds
it; this line is cut off at the limit, and the machine has stopped. -/
theorem limit_cuts_run (hsink : m.sink = .unlimited) (limit n : Nat) :
    ((m.stepped n).sink.toList.length ≤ limit → m.AgreesFor (m.limitedTo limit) n) ∧
    (limit < (m.stepped n).sink.toList.length →
      ∃ k < n, m.AgreesFor (m.limitedTo limit) k ∧ (∃ r, m.CutAt limit k r) ∧
        ((m.limitedTo limit).stepped (k + 1)).sink.toList =
          (m.stepped n).sink.toList.take limit) := by
  have hfree : m.sink.limit = none := congrArg Sink.limit hsink
  refine ⟨agreesFor_limitedTo hfree, fun hexceeds => ?_⟩
  have hstart : ¬limit < (m.stepped 0).sink.toList.length := by
    rw [stepped_zero, hsink]
    exact Nat.not_lt_zero limit
  -- the step after which the limit is exceeded for the first time
  obtain ⟨k, hroom, hfirst⟩ := Nat.exists_not_and_succ_of_not_zero_of_exists
    (p := fun k => limit < (m.stepped k).sink.toList.length) hstart ⟨n, hexceeds⟩
  rw [Nat.not_lt] at hroom
  -- in the first `n` steps the limit is exceeded, so it is not exceeded later for the first time
  have hk : k < n := by
    by_contra hle
    have hroom' := (length_sink_stepped_le (Nat.not_lt.mp hle)).trans hroom
    exact absurd hexceeds (Nat.not_lt.mpr hroom')
  obtain ⟨r, hcut⟩ := exists_cutAt hfree hroom hfirst
  refine ⟨k, hk, agreesFor_limitedTo hfree hroom, ⟨r, hcut⟩, ?_⟩
  -- what is printed later does not change the first `limit` bytes
  obtain ⟨more, hmore⟩ := toList_sink_stepped_isPrefix (m := m) (Nat.succ_le_of_lt hk)
  rw [hcut.output, ← hmore, List.take_append_of_le_length hfirst.le]

/-- Of two numbers in a row, the limit falls into the second one. -/
theorem limit_cuts_run_second :
    let m : Machine :=
      { fresh .unlimited with memory := .ofBytes [0x82, 0, 123, 0x47, 0, 0x47, 0, 0x01] }
    m.sink = .unlimited ∧ 5 < (m.stepped 4).sink.toList.length ∧
      ∃ k < 4, m.AgreesFor (m.limitedTo 5) k ∧ (∃ r, m.CutAt 5 k r) ∧
        ((m.limitedTo 5).stepped (k + 1)).sink.toList = [0x31, 0x32, 0x33, 0x0A, 0x31] := by
  intro m
  have hexceeds : 5 < (m.stepped 4).sink.toList.length := by decide +kernel
  have htake : (m.stepped 4).sink.toList.take 5 = [0x31, 0x32, 0x33, 0x0A, 0x31] := by
    decide +kernel
  rw [← htake]
  exact ⟨rfl, hexceeds, (limit_cuts_run rfl 5 4).2 hexceeds⟩

end ByteMachine.Machine
