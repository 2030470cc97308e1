import ByteMachine.Proofs.Machine.Stores

/-!
# What a step reads

A step depends on few cells of memory. `Machine.footprint` lists them: the cell at the program
counter, the operand bytes that the instruction there has, and the top of the stack if it is
popped. The bytes behind them, which the machine fetches as well, do not count (`deed_congr`).

Two machines that differ in other cells only (`DifferIn`) find the same deed
(`finding_withMemory`), and a deed does the same to both (`after_withMemory`). So one step takes
them to machines that again differ in these cells only (`DifferIn.step`), and so do many
(`DifferIn.stepped`), although the program may write over itself on the way. What the machines store
is the same as well, hence a cell that is written in one of them is written in both.
-/

namespace ByteMachine.Machine

variable {m m' : Machine} {memory : Memory} {i : Instruction} {a b v : Byte} {d : Deed}
  {x : Address} {X : Set Address} {n k : Nat}

/-- The cells that the next step of a running machine depends on. -/
def footprint (m : Machine) : List Address :=
  m.pc ::
    match Instruction.ofOpcode? (m.read m.pc) with
    | some i =>
      ((List.range i.operands).map fun k => m.pc + UInt8.ofNat (k + 1)) ++
        if i = .pop ∨ i = .ret then [m.sp] else []
    | none => []

/-- The machines differ at most in the cells of `X`. -/
structure DifferIn (X : Set Address) (m m' : Machine) : Prop where
  rest : m' = m.withMemory m'.memory
  memory : ∀ x ∉ X, m'.read x = m.read x

/-- The snapshot shows the instruction at the program counter and its operands. The bytes behind
them may be any. -/
structure ShownBy (m : Machine) (s : Snapshot) : Prop where
  pc : s.pc = m.pc
  opcode : s.opcode = m.read m.pc
  first : ∀ i : Instruction, m.read m.pc = i.opcode → 1 ≤ i.operands → s.first = m.read (m.pc + 1)
  second : ∀ i : Instruction, m.read m.pc = i.opcode → 2 ≤ i.operands →
    s.second = m.read (m.pc + 2)

/-! ### The cells of the footprint -/

/-- The opcode is always read. -/
theorem pc_mem_footprint : m.pc ∈ m.footprint :=
  List.mem_cons_self

section

variable (hi : m.read m.pc = i.opcode)

include hi

/-- At an opcode, the footprint has the operands of the instruction, and for two of them the top of
the stack. -/
theorem footprint_of_opcode :
    m.footprint = m.pc :: (((List.range i.operands).map fun k => m.pc + UInt8.ofNat (k + 1)) ++
      if i = .pop ∨ i = .ret then [m.sp] else []) := by
  rw [footprint, Instruction.ofOpcode?_eq_some_iff.mpr hi]

/-- The operands that the instruction has are read. -/
theorem operand_mem_footprint (hk : k < i.operands) :
    m.pc + UInt8.ofNat (k + 1) ∈ m.footprint := by
  rw [footprint_of_opcode hi]
  refine List.mem_cons_of_mem _ (List.mem_append_left _ ?_)
  exact List.mem_map.mpr ⟨k, List.mem_range.mpr hk, rfl⟩

/-- The top of the stack is read by what takes it off. -/
theorem sp_mem_footprint (hpops : i = .pop ∨ i = .ret) : m.sp ∈ m.footprint := by
  rw [footprint_of_opcode hi, if_pos hpops]
  exact List.mem_cons_of_mem _ (List.mem_append_right _ List.mem_cons_self)

end

/-! ### One step -/

/-- With another memory, an instruction finds the same deed, unless it takes something else off the
stack. -/
theorem deed_withMemory (h : i = .pop ∨ i = .ret → memory.read m.sp = m.read m.sp) :
    (m.withMemory memory).deed i a b = m.deed i a b := by
  cases i with
  | pop =>
    have htop : (m.withMemory memory).read m.sp = m.read m.sp := h (.inl rfl)
    show (m.register a >>= fun r =>
      pure (Deed.popped r ((m.withMemory memory).read m.sp) m.sp)) = _
    rw [htop]
    rfl
  | ret =>
    have htop : (m.withMemory memory).read m.sp = m.read m.sp := h (.inr rfl)
    show pure (Deed.returned ((m.withMemory memory).read m.sp)) = _
    rw [htop]
    rfl
  | _ => rfl

/-- **What a step finds depends on its footprint only.** -/
theorem finding_withMemory (h : m.running → ∀ x ∈ m.footprint, memory.read x = m.read x) :
    (m.withMemory memory).finding = m.finding := by
  cases hrunning : m.running with
  | false =>
    have hrunning' : (m.withMemory memory).running = false := hrunning
    -- a machine that has stopped reads nothing, so the memory may be any
    rw [finding_of_not_running hrunning, finding_of_not_running hrunning']
  | true =>
    have hrunning' : (m.withMemory memory).running := hrunning
    have hsame : ∀ x ∈ m.footprint, (m.withMemory memory).read x = m.read x := h hrunning
    -- the opcode is in the footprint, so both find the same instruction or none
    have hpc : (m.withMemory memory).read (m.withMemory memory).pc = m.read m.pc :=
      hsame m.pc pc_mem_footprint
    obtain ⟨i, hi⟩ | hillegal := opcode_cases (m.read m.pc)
    · have htop : i = .pop ∨ i = .ret → memory.read m.sp = m.read m.sp :=
        fun hpops => hsame _ (sp_mem_footprint hi hpops)
      rw [finding_of_opcode hrunning hi, finding_of_opcode hrunning' (hpc.trans hi),
        deed_withMemory htop]
      -- an operand byte is in the footprint if the instruction has it
      exact deed_congr (fun hfirst => hsame _ (operand_mem_footprint hi hfirst))
        (fun hsecond => hsame _ (operand_mem_footprint hi hsecond))
    · have hillegal' : ∀ i : Instruction,
          (m.withMemory memory).read (m.withMemory memory).pc ≠ i.opcode := by
        rw [hpc]
        exact hillegal
      rw [finding_of_illegal hrunning hillegal, finding_of_illegal hrunning' hillegal', hpc]
      rfl

/-- Where two memories agree, they agree after the store of a deed as well. -/
theorem read_storeIn_congr {memory' : Memory} (h : memory'.read x = memory.read x) :
    (d.storeIn memory').read x = (d.storeIn memory).read x := by
  unfold Deed.storeIn
  cases d.store? with
  | none => exact h
  | some store =>
    -- a cell in which the deed stores has the same content afterwards, whatever it had before
    rw [Memory.read_write, Memory.read_write, h]

section

variable (h : m.DifferIn X m')

include h

/-- Machines that differ only where nothing is read find the same. -/
theorem DifferIn.finding (hunread : m.running → ∀ x ∈ X, x ∉ m.footprint) :
    m'.finding = m.finding := by
  rw [h.rest]
  apply finding_withMemory
  -- a cell of the footprint is not in `X`, and outside of `X` the memories agree
  intro hrunning x hx
  apply h.memory
  intro hxX
  exact hunread hrunning x hxX hx

/-- The sinks of the two machines are the same. -/
theorem DifferIn.canPrint_iff : m'.CanPrint d ↔ m.CanPrint d := by
  rw [h.rest]
  exact Iff.rfl

/-- A deed leaves the machines to differ in the same cells at most. -/
theorem DifferIn.after (d : Deed) : (m.after d).DifferIn X (m'.after d) := by
  -- the deed stores in both memories, and all else is the same
  have hafter : m'.after d = (m.after d).withMemory (d.storeIn m'.memory) := by
    rw [← after_withMemory, ← h.rest]
  constructor
  · rw [hafter]
    rfl
  · intro x hx
    rw [hafter, Machine.read, Machine.read, memory_after]
    exact read_storeIn_congr (h.memory x hx)

/-- **A step that reads none of the cells in which the machines differ does the same to both.** -/
theorem DifferIn.step (hunread : m.running → ∀ x ∈ X, x ∉ m.footprint) :
    m'.step.fault = m.step.fault ∧ m'.step.output = m.step.output ∧
      m.step.machine.DifferIn X m'.step.machine := by
  have hsame := h.finding hunread
  -- both find the same deed, so there are the same three cases for both
  cases hfinding : m.finding with
  | error fault =>
    have hyields := step_of_error hfinding
    have hyields' := step_of_error (hsame.trans hfinding)
    rw [hyields.machine, hyields.fault, hyields.output, hyields'.machine]
    refine ⟨hyields'.fault, hyields'.output, ?_, h.memory⟩
    rw [h.rest]
    rfl
  | ok d =>
    by_cases hprint : m.CanPrint d
    · have hyields := step_of_canPrint hfinding hprint
      have hyields' := step_of_canPrint (hsame.trans hfinding) (h.canPrint_iff.mpr hprint)
      rw [hyields.machine, hyields.fault, hyields.output, hyields'.machine]
      exact ⟨hyields'.fault, hyields'.output, h.after d⟩
    · have hyields := step_of_not_canPrint hfinding hprint
      have hyields' := step_of_not_canPrint (hsame.trans hfinding) (mt h.canPrint_iff.mp hprint)
      rw [hyields.machine, hyields.fault, hyields.output, hyields'.machine]
      refine ⟨hyields'.fault, ?_, ?_, h.memory⟩
      · rw [hyields'.output, h.rest]
        rfl
      · rw [h.rest]
        rfl

/-- What the step stores is the same as well. -/
theorem DifferIn.stores_iff (hunread : m.running → ∀ x ∈ X, x ∉ m.footprint) :
    m'.Stores x v ↔ m.Stores x v := by
  have hsame := h.finding hunread
  cases hfault : m.step.fault with
  | some fault =>
    -- neither of the two steps succeeds
    have hfault' := (h.step hunread).1.trans hfault
    refine iff_of_false (fun hstores => ?_) (fun hstores => ?_)
    · cases hstores.fault_eq_none.symm.trans hfault'
    · cases hstores.fault_eq_none.symm.trans hfault
  | none =>
    obtain ⟨d, hfinding, hprint⟩ := finding_of_ok hfault
    rw [Machine.stores_iff hfinding hprint,
      Machine.stores_iff (hsame.trans hfinding) (h.canPrint_iff.mpr hprint)]

end

/-! ### Sequences of steps -/

/-- In the first `n` steps the machines give the same results and go on to differ in `X` only. A
cell of `X` keeps its own content in each of them, or the last value stored there is the same. -/
structure SameFor (X : Set Address) (m m' : Machine) (n : Nat) : Prop where
  results : m'.results n = m.results n
  output : ∀ k < n, (m'.stepped k).step.output = (m.stepped k).step.output
  machines : ∀ k ≤ n, (m.stepped k).DifferIn X (m'.stepped k)
  cells : ∀ k ≤ n, ∀ x ∈ X,
    (m.NeverStored k x ∧ m'.NeverStored k x ∧
      (m.stepped k).read x = m.read x ∧ (m'.stepped k).read x = m'.read x) ∨
    ∃ v, m.StoredLast k x v ∧ m'.StoredLast k x v ∧
      (m.stepped k).read x = v ∧ (m'.stepped k).read x = v

/-- The last value stored depends on the stores alone. -/
theorem StoredLast.congr
    (hsame : ∀ j < n, ∀ x v, (m'.stepped j).Stores x v ↔ (m.stepped j).Stores x v) :
    m'.StoredLast n x v ↔ m.StoredLast n x v := by
  refine exists_congr fun k => and_congr_right fun hk => and_congr (hsame k hk x v) ?_
  refine forall_congr' fun j => forall_congr' fun _ => forall_congr' fun hjn => ?_
  exact forall_congr' fun w => not_congr (hsame j hjn x w)

/-- So does it whether anything was stored. -/
theorem NeverStored.congr
    (hsame : ∀ j < n, ∀ x v, (m'.stepped j).Stores x v ↔ (m.stepped j).Stores x v) :
    m'.NeverStored n x ↔ m.NeverStored n x :=
  forall_congr' fun j => forall_congr' fun hj => forall_congr' fun v => not_congr (hsame j hj x v)

section

variable (h : m.DifferIn X m')
  (hunread : ∀ k < n, (m.stepped k).running → ∀ x ∈ X, x ∉ (m.stepped k).footprint)

include h hunread

/-- As long as nothing is read in which they differ, the machines go on side by side. -/
theorem DifferIn.stepped (hle : k ≤ n) : (m.stepped k).DifferIn X (m'.stepped k) := by
  -- by induction on the steps, each of which keeps the machines alike
  induction k with
  | zero => exact h
  | succ k ih =>
    obtain ⟨-, -, hnext⟩ := (ih (Nat.le_of_succ_le hle)).step (hunread k hle)
    rw [stepped_succ, stepped_succ]
    exact hnext

/-- Machines that go on side by side do the same. -/
theorem DifferIn.sameFor : m.SameFor X m' n := by
  have hmachines (k : Nat) (hk : k ≤ n) := h.stepped hunread hk
  -- first that the steps do the same, then what this means for the single cells
  have hsteps (k : Nat) (hk : k < n) := (hmachines k hk.le).step (hunread k hk)
  have hstores (k : Nat) (hk : k < n) (x : Address) (v : Byte) :
      (m'.stepped k).Stores x v ↔ (m.stepped k).Stores x v :=
    (hmachines k hk.le).stores_iff (hunread k hk)
  refine ⟨?_, fun k hk => (hsteps k hk).2.1, hmachines, ?_⟩
  · exact List.map_congr_left fun k hk => (hsteps k (List.mem_range.mp hk)).1
  · intro k hk x _
    -- a cell is stored in by the same steps of both machines
    have hsame (j : Nat) (hj : j < k) := hstores j (Nat.lt_of_lt_of_le hj hk)
    obtain ⟨v, hlast⟩ | hnever := storedLast_or_neverStored m k x
    · right
      have hlast' := (StoredLast.congr hsame).mpr hlast
      exact ⟨v, hlast, hlast', hlast.read, hlast'.read⟩
    · left
      have hnever' := (NeverStored.congr hsame).mpr hnever
      exact ⟨hnever, hnever', hnever.read, hnever'.read⟩

end

/-- What is fetched behind an instruction and its operands does not count. -/
theorem executeFetched_of_shownBy {s : Snapshot} (h : m.ShownBy s) :
    m.executeFetched s = m.executeFetched m.snapshot := by
  have hopcode : s.opcode = m.snapshot.opcode := h.opcode
  obtain ⟨i, hi⟩ | hillegal := opcode_cases (m.read m.pc)
  · have hdecode : Instruction.ofOpcode? m.snapshot.opcode = some i :=
      Instruction.ofOpcode?_eq_some_iff.mpr hi
    rw [executeFetched, executeFetched, hopcode, hdecode]
    exact execute_congr (h.first i hi) (h.second i hi)
  · -- a byte that is no opcode is reported with its address, and the snapshot shows both
    have hdecode : Instruction.ofOpcode? m.snapshot.opcode = none :=
      Instruction.ofOpcode?_eq_none_iff.mpr hillegal
    rw [executeFetched, executeFetched, hopcode, hdecode, h.pc]
    rfl

/-- **Memory that is not read does not matter.** If none of the cells in which two machines differ
is read, the machines do the same; and in no step does it matter what is fetched behind an
instruction and its operands. -/
theorem unread_memory_irrelevant (h : m.DifferIn X m')
    (hunread : ∀ k < n, (m.stepped k).running → ∀ x ∈ X, x ∉ (m.stepped k).footprint) :
    m.SameFor X m' n ∧
      ∀ k s, (m.stepped k).ShownBy s →
        (m.stepped k).executeFetched s = (m.stepped k).executeFetched (m.stepped k).snapshot :=
  ⟨h.sameFor hunread, fun _ _ => executeFetched_of_shownBy⟩

/-- A push over one of the cells in which the machines differ. The others are fetched, and only
fetched, behind the halt. -/
theorem unread_memory_irrelevant_push :
    let m : Machine := { fresh .unlimited with memory := .ofBytes [0x45, 0, 0x01] }
    let m' := m.withMemory (((m.memory.write 3 7).write 4 8).write 0xFF 9)
    let X : Set Address := {x | x ∈ [3, 4, 0xFF]}
    m.DifferIn X m' ∧ m'.read 3 ≠ m.read 3 ∧ m.SameFor X m' 3 := by
  intro m m' X
  have hdiffer : m.DifferIn X m' := by
    refine ⟨rfl, fun x hx => ?_⟩
    have hx' : x ∉ [3, 4, 0xFF] := hx
    simp only [List.mem_cons, List.not_mem_nil, or_false, not_or] at hx'
    obtain ⟨h3, h4, hlast⟩ := hx'
    exact (Memory.read_write_of_ne _ _ hlast).trans
      ((Memory.read_write_of_ne _ _ h4).trans (Memory.read_write_of_ne _ _ h3))
  -- of the three steps only the first two are made by a running machine
  have hunread : ∀ k < 3, (m.stepped k).running →
      ∀ x ∈ [3, 4, 0xFF], x ∉ (m.stepped k).footprint := by decide +kernel
  exact ⟨hdiffer, by decide +kernel, (unread_memory_irrelevant hdiffer hunread).1⟩

end ByteMachine.Machine
