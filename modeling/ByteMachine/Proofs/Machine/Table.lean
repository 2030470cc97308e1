import ByteMachine.Proofs.Machine.Step

/-!
# The instruction table

The table says of every instruction what it changes, in terms of the state in front of it: which
registers get which values, which cell is written, what is compared and printed, where the program
goes on, and whether the machine stops. An `Effect` is such a row. It mentions only what changes,
and `Effect.TakesTo` adds what the table leaves unsaid, namely that all else stays as it is and that
the program counter moves behind the instruction unless the row says where it goes.

`step_table` is the statement that the machine keeps to the table. The rows take no steps in
order, as the machine does when it pushes, pops and calls; where the stack pointer is itself the
operand, the order shows, and the rows spell out the value that results.
-/

namespace ByteMachine

/-- What an instruction changes. -/
structure Effect where
  /-- The registers that are set. -/
  registers : List (Register × Byte) := []
  /-- The memory cell that is written. -/
  cell? : Option (Address × Byte) := none
  /-- The values that are compared. -/
  compared? : Option (Byte × Byte) := none
  /-- The value that is printed. -/
  printed? : Option Byte := none
  /-- The new program counter, if it is named. -/
  target? : Option Address := none
  /-- The machine stops. -/
  halts : Bool := false

/-- The machine `m'` differs from `m` as the effect says and in nothing else. -/
structure Effect.TakesTo (e : Effect) (m m' : Machine) : Prop where
  registers : ∀ r, m'.registers.get r = (e.registers.lookup r).getD (m.registers.get r)
  memory : ∀ x, m'.read x =
    match e.cell? with
    | some (cell, value) => if x = cell then value else m.read x
    | none => m.read x
  /-- Of the three bits, the one of the relation that holds is set: 1 for equal, 2 for greater, 4
  for less. -/
  flags : m'.flags.bits =
    match e.compared? with
    | some (x, y) => if x.toNat = y.toNat then 1 else if y.toNat < x.toNat then 2 else 4
    | none => m.flags.bits
  output : m'.sink.toList = m.sink.toList ++
    match e.printed? with
    | some value => (Nat.toDigits 10 value.toNat).map (fun c => UInt8.ofNat c.toNat) ++ [0x0A]
    | none => []
  limit : m'.sink.limit = m.sink.limit
  running : m'.running = !e.halts
  pc : m'.pc = e.target?.getD (m.pc + 1 + (m.read m.pc >>> (6 : Byte)))

/-- The row of an instruction with the operand bytes `a` and `b`. -/
inductive Machine.Row (m : Machine) (a b : Byte) : Instruction → Effect → Prop where
  | ldi {r : Register} (hr : a.toNat = r) : Row m a b .ldi { registers := [(r, b)] }
  | add {r s : Register} (hr : a.toNat = r) (hs : b.toNat = s) :
      Row m a b .add { registers := [(r, m.registers.get r + m.registers.get s)] }
  | mul {r s : Register} (hr : a.toNat = r) (hs : b.toNat = s) :
      Row m a b .mul { registers := [(r, m.registers.get r * m.registers.get s)] }
  | cmp {r s : Register} (hr : a.toNat = r) (hs : b.toNat = s) :
      Row m a b .cmp { compared? := some (m.registers.get r, m.registers.get s) }
  | prn {r : Register} (hr : a.toNat = r) :
      Row m a b .prn { printed? := some (m.registers.get r) }
  | push {r : Register} (hr : a.toNat = r) :
      Row m a b .push
        { registers := [(7, m.registers.get 7 - 1)]
          cell? := some (m.registers.get 7 - 1,
            if r = 7 then m.registers.get 7 - 1 else m.registers.get r) }
  | pop {r : Register} (hr : a.toNat = r) :
      Row m a b .pop
        { registers :=
            if r = 7 then [(7, m.read (m.registers.get 7) + 1)]
            else [(r, m.read (m.registers.get 7)), (7, m.registers.get 7 + 1)] }
  | call {r : Register} (hr : a.toNat = r) :
      Row m a b .call
        { registers := [(7, m.registers.get 7 - 1)]
          cell? := some (m.registers.get 7 - 1, m.pc + 2)
          target? := some (if r = 7 then m.registers.get 7 - 1 else m.registers.get r) }
  | ret :
      Row m a b .ret
        { registers := [(7, m.registers.get 7 + 1)]
          target? := some (m.read (m.registers.get 7)) }
  | jmp {r : Register} (hr : a.toNat = r) :
      Row m a b .jmp { target? := some (m.registers.get r) }
  | jeqSet {r : Register} (hset : m.flags.bits &&& 1 = 1) (hr : a.toNat = r) :
      Row m a b .jeq { target? := some (m.registers.get r) }
  | jeqClear (hclear : m.flags.bits &&& 1 = 0) : Row m a b .jeq { target? := some (m.pc + 2) }
  | jneSet (hset : m.flags.bits &&& 1 = 1) : Row m a b .jne { target? := some (m.pc + 2) }
  | jneClear {r : Register} (hclear : m.flags.bits &&& 1 = 0) (hr : a.toNat = r) :
      Row m a b .jne { target? := some (m.registers.get r) }
  | hlt : Row m a b .hlt { halts := true }

/-- The effect is what the deed does, part by part. Most parts can be read off both. -/
structure Effect.Describes (e : Effect) (m : Machine) (d : Deed) : Prop where
  registers : ∀ r, (m.applyInPlace d).registers.get r =
    (e.registers.lookup r).getD (m.registers.get r) := by intro r; rfl
  memory : (m.applyInPlace d).memory =
    match e.cell? with
    | some (cell, value) => m.memory.write cell value
    | none => m.memory := by rfl
  flags : (m.applyInPlace d).flags =
    match e.compared? with
    | some (x, y) => .ofCompare x y
    | none => m.flags := by rfl
  printed : d.printed? = e.printed? := by rfl
  target : d.target?.getD (m.pc + UInt8.ofNat d.instruction.width) =
    e.target?.getD (m.pc + UInt8.ofNat d.instruction.width) := by rfl
  running : (m.applyInPlace d).running = (!e.halts && m.running) := by rfl

/-! ### What the parts of a machine amount to -/

/-- The width of an instruction, computed from its opcode as the machine does it. -/
theorem Instruction.ofNat_width (i : Instruction) :
    UInt8.ofNat i.width = 1 + (i.opcode >>> (6 : Byte)) := by
  cases i <;> rfl

/-- The line of a value is made of its decimal digits and a line feed. -/
theorem Byte.decimalLine_eq (value : Byte) :
    value.decimalLine =
      (Nat.toDigits 10 value.toNat).map (fun c => UInt8.ofNat c.toNat) ++ [0x0A] := by
  rw [decimalLine, decimal, Nat.toString_eq_ofList_toDigits, String.toList_ofList]

/-- A comparison sets the bit of the relation that holds. -/
theorem Flags.bits_ofCompare (x y : Byte) :
    (ofCompare x y).bits =
      if x.toNat = y.toNat then 1 else if y.toNat < x.toNat then 2 else 4 := by
  show bits ⟨some (compareOfLessAndEq x y)⟩ = _
  unfold compareOfLessAndEq
  -- the three relations are tried in the order in which the comparison tries them
  by_cases hlt : x < y
  · have hlt' : x.toNat < y.toNat := UInt8.lt_iff_toNat_lt.mp hlt
    rw [if_pos hlt, if_neg (by omega), if_neg (by omega)]
    rfl
  · have hle : y.toNat ≤ x.toNat := Nat.le_of_not_lt (mt UInt8.lt_iff_toNat_lt.mpr hlt)
    -- what is not less is equal or greater
    rw [if_neg hlt]
    by_cases heq : x = y
    · rw [if_pos heq, if_pos (congrArg UInt8.toNat heq)]
      rfl
    · have hne : x.toNat ≠ y.toNat := mt UInt8.toNat_inj.mp heq
      rw [if_neg heq, if_neg hne, if_pos (by omega)]
      rfl

/-- The lowest bit is the one that the conditional jumps test. -/
theorem Flags.bits_and_one (f : Flags) : f.bits &&& 1 = if f.equal then 1 else 0 := by
  obtain ⟨_ | _ | _ | _⟩ := f <;> rfl

namespace Machine

variable {m : Machine} {a b : Byte} {i : Instruction} {d : Deed} {e : Effect}

/-- What is done tells which instruction does it. -/
theorem Does.instruction_eq (h : m.Does a b i d) : d.instruction = i := by
  cases h <;> rfl

/-- The bit of equality is set after equal values were compared. -/
theorem bits_and_one_of_equal (h : m.flags.equal) : m.flags.bits &&& 1 = 1 := by
  rw [Flags.bits_and_one, if_pos h]

/-- The bit of equality is clear otherwise. -/
theorem bits_and_one_of_not_equal (h : ¬m.flags.equal) : m.flags.bits &&& 1 = 0 := by
  rw [Flags.bits_and_one, if_neg h]

/-! ### Deeds and rows -/

/-- A deed with its line takes a running machine where its effect says. -/
theorem takesTo_after (h : e.Describes m d) (hrunning : m.running) (hprint : m.CanPrint d)
    (hi : m.read m.pc = d.instruction.opcode) : e.TakesTo m (m.after d) where
  -- every field is read off the deed, and the row has the same entry there
  registers := h.registers
  memory x := by
    show (m.applyInPlace d).memory.read x = _
    rw [h.memory]
    cases e.cell? with
    | none => rfl
    | some write => exact Memory.read_write ..
  flags := by
    show (m.applyInPlace d).flags.bits = _
    rw [h.flags]
    cases e.compared? with
    | none => rfl
    | some values => exact Flags.bits_ofCompare ..
  output := by
    show (m.sink.write d.line).toList = _
    rw [Sink.toList_write, Deed.line, ← h.printed]
    cases hvalue : d.printed? with
    | none =>
      -- nothing is printed, and of nothing the sink takes nothing
      show _ ++ m.sink.accepted [] = _ ++ []
      rw [Sink.accepted]
      split <;> simp
    | some value =>
      show _ ++ m.sink.accepted value.decimalLine = _
      rw [Sink.accepted_of_fits (hprint value hvalue), Byte.decimalLine_eq]
  limit := rfl
  running := by
    show (m.applyInPlace d).running = _
    rw [h.running, hrunning, Bool.and_true]
  pc := by
    show d.target?.getD (m.pc + UInt8.ofNat d.instruction.width) = _
    rw [h.target, hi, Instruction.ofNat_width, UInt8.add_assoc]

/-- One register that is set is an entry of the row. -/
theorem get_set_eq_lookup (rs : Registers) (r s : Register) (value : Byte) :
    (rs.set r value).get s = ([(r, value)].lookup s).getD (rs.get s) := by
  rw [Registers.get_set, List.lookup_cons, List.lookup_nil]
  -- either the register is the one that is set, or it keeps its value
  by_cases hs : s = r
  · rw [if_pos hs, beq_iff_eq.mpr hs]
    rfl
  · rw [if_neg hs, beq_eq_false_iff_ne.mpr hs]
    rfl

/-- Two registers that are set are two entries of the row. -/
theorem get_set_set_eq_lookup (rs : Registers) {r t : Register} (s : Register) (v w : Byte)
    (hne : r ≠ t) :
    ((rs.set r v).set t w).get s = ([(r, v), (t, w)].lookup s).getD (rs.get s) := by
  rw [get_set_eq_lookup, List.lookup_cons (k := r)]
  -- of the two entries, the lookup finds the first one that fits
  by_cases hs : s = r
  · have hst : s ≠ t := fun h => hne (hs.symm.trans h)
    rw [← get_set_eq_lookup, Registers.get_set_of_ne _ _ hst, hs, beq_self_eq_true,
      Registers.get_set_self]
    rfl
  · rw [Registers.get_set_of_ne _ _ hs, beq_eq_false_iff_ne.mpr hs]

/-- The registers after popping: the stack pointer is incremented after the register is set. -/
theorem get_popped (m : Machine) (r s : Register) (value : Byte) (sp : Address) :
    (m.applyInPlace (.popped r value sp)).registers.get s =
      ((if r = 7 then [(7, value + 1)] else [(r, value), (7, m.sp + 1)]).lookup s).getD
        (m.registers.get s) := by
  -- the stack pointer is read after the register is set, which shows if they are the same
  show ((m.registers.set r value).set 7 ((m.registers.set r value).get 7 + 1)).get s = _
  by_cases hr : r = 7
  · rw [if_pos hr, hr, Registers.get_set_self, ← get_set_eq_lookup]
    by_cases hs : s = 7
    · rw [hs, Registers.get_set_self, Registers.get_set_self]
    · simp only [Registers.get_set_of_ne _ _ hs]
  · rw [if_neg hr, Registers.get_set_of_ne _ _ (Ne.symm hr)]
    exact get_set_set_eq_lookup _ _ _ _ hr

/-- Every deed has its row in the table. -/
theorem exists_row (h : m.Does a b i d) : ∃ e, m.Row a b i e ∧ e.Describes m d := by
  have named {x : Byte} {r : Register} : Register.ofByte? x = some r → x.toNat = r :=
    Register.ofByte?_eq_some_iff.mp
  -- one case for each deed; where the row has no entry, both sides are the same
  cases h with
  | halted => exact ⟨_, .hlt, {}⟩
  | returned => exact ⟨_, .ret, { registers := (get_set_eq_lookup _ _ · _) }⟩
  | printed hr => exact ⟨_, .prn (named hr), {}⟩
  | pushed hr => exact ⟨_, .push (named hr), { registers := (get_set_eq_lookup _ _ · _) }⟩
  | popped hr => exact ⟨_, .pop (named hr), { registers := (get_popped m _ · _ _) }⟩
  | called hr => exact ⟨_, .call (named hr), { registers := (get_set_eq_lookup _ _ · _) }⟩
  | jumped hr => exact ⟨_, .jmp (named hr), {}⟩
  | equalTaken hc hr => exact ⟨_, .jeqSet (bits_and_one_of_equal hc) (named hr), {}⟩
  | equalNotTaken hc =>
    -- the row says where the program goes on, and that is behind the instruction
    have hwidth : UInt8.ofNat Instruction.jeq.width = 2 := rfl
    exact ⟨_, .jeqClear (bits_and_one_of_not_equal hc),
      { target := congrArg (m.pc + ·) hwidth }⟩
  | notEqualTaken hc hr => exact ⟨_, .jneClear (bits_and_one_of_not_equal hc) (named hr), {}⟩
  | notEqualNotTaken hc =>
    have hwidth : UInt8.ofNat Instruction.jne.width = 2 := rfl
    exact ⟨_, .jneSet (bits_and_one_of_equal hc), { target := congrArg (m.pc + ·) hwidth }⟩
  | assigned hr => exact ⟨_, .ldi (named hr), { registers := (get_set_eq_lookup _ _ · _) }⟩
  -- both operands have to name a register
  | added hr hs =>
    exact ⟨_, .add (named hr) (named hs), { registers := (get_set_eq_lookup _ _ · _) }⟩
  | multiplied hr hs =>
    exact ⟨_, .mul (named hr) (named hs), { registers := (get_set_eq_lookup _ _ · _) }⟩
  | compared hr hs => exact ⟨_, .cmp (named hr) (named hs), {}⟩

/-- **A step that succeeds does what the table says of the instruction it decodes.** -/
theorem step_table (hrunning : m.running) (hok : m.step.fault = none) :
    ∃ i e, m.read m.pc = i.opcode ∧
      m.Row (m.read (m.pc + 1)) (m.read (m.pc + 2)) i e ∧ e.TakesTo m m.step.machine := by
  obtain ⟨i, hi, hexecutes⟩ := executes_of_step hrunning hok
  obtain ⟨d, hdoes, hprint, hmachine⟩ := executes_iff.mp hexecutes
  obtain ⟨e, hrow, hdescribes⟩ := exists_row hdoes
  -- the program counter moves by the width of the instruction that was decoded
  have hopcode : m.read m.pc = d.instruction.opcode := by rw [hi, hdoes.instruction_eq]
  rw [hmachine]
  exact ⟨i, e, hi, hrow, takesTo_after hdescribes hrunning hprint hopcode⟩

/-- A first push wraps around, and what it stores is the stack pointer itself. -/
theorem step_table_push_stackPointer :
    let m : Machine := { fresh .unlimited with memory := .ofBytes [0x45, 7] }
    m.running ∧ m.step.fault = none ∧ ∃ i e, m.read m.pc = i.opcode ∧
      m.Row (m.read (m.pc + 1)) (m.read (m.pc + 2)) i e ∧ e.TakesTo m m.step.machine :=
  ⟨rfl, by decide +kernel, step_table rfl (by decide +kernel)⟩

end Machine

end ByteMachine
