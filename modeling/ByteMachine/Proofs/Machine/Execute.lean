import ByteMachine.Proofs.Machine.Outcome

/-!
# What executing an instruction does

To execute an instruction means to look up a deed, to print its line if it has one, and to apply
it. `Machine.Does` lists the deeds: one case for each instruction, two for a conditional jump, each
with the operands that have to name registers. `Machine.Executes` is a successful call, and
`executes_iff` says all that such a call does: some deed of the instruction is applied, and the sink
takes its line. Later proofs about successful calls go through these two only.
-/

namespace ByteMachine

/-- The bytes that a deed prints: one line, or nothing. -/
def Deed.line (d : Deed) : List Byte :=
  match d.printed? with
  | some value => value.decimalLine
  | none => []

namespace Machine

variable {m m' : Machine} {i : Instruction} {a b a' b' : Byte} {d : Deed}

/-- The content of a register after the stack pointer has been decremented. -/
def lowered (m : Machine) (r : Register) : Byte :=
  if r = .stackPointer then m.sp - 1 else m.registers.get r

/-- With the operand bytes `a` and `b`, the instruction finds the deed in the machine. -/
inductive Does (m : Machine) (a b : Byte) : Instruction → Deed → Prop where
  | halted : Does m a b .hlt .halted
  | returned : Does m a b .ret (.returned (m.read m.sp))
  | printed {r : Register} (hr : Register.ofByte? a = some r) :
      Does m a b .prn (.printed r (m.registers.get r))
  | pushed {r : Register} (hr : Register.ofByte? a = some r) :
      Does m a b .push (.pushed r (m.lowered r) (m.sp - 1))
  | popped {r : Register} (hr : Register.ofByte? a = some r) :
      Does m a b .pop (.popped r (m.read m.sp) m.sp)
  | called {r : Register} (hr : Register.ofByte? a = some r) :
      Does m a b .call (.called r (m.lowered r) (m.pc + 2) (m.sp - 1))
  | jumped {r : Register} (hr : Register.ofByte? a = some r) :
      Does m a b .jmp (.jumped (m.registers.get r))
  | equalTaken {r : Register} (hc : m.flags.equal) (hr : Register.ofByte? a = some r) :
      Does m a b .jeq (.branched .equal a (some (m.registers.get r)))
  | equalNotTaken (hc : ¬m.flags.equal) : Does m a b .jeq (.branched .equal a none)
  | notEqualTaken {r : Register} (hc : ¬m.flags.equal) (hr : Register.ofByte? a = some r) :
      Does m a b .jne (.branched .notEqual a (some (m.registers.get r)))
  | notEqualNotTaken (hc : m.flags.equal) : Does m a b .jne (.branched .notEqual a none)
  | assigned {r : Register} (hr : Register.ofByte? a = some r) : Does m a b .ldi (.assigned r b)
  | added {r s : Register} (hr : Register.ofByte? a = some r) (hs : Register.ofByte? b = some s) :
      Does m a b .add (.added r s (m.registers.get r + m.registers.get s))
  | multiplied {r s : Register} (hr : Register.ofByte? a = some r)
      (hs : Register.ofByte? b = some s) :
      Does m a b .mul (.multiplied r s (m.registers.get r * m.registers.get s))
  | compared {r s : Register} (hr : Register.ofByte? a = some r)
      (hs : Register.ofByte? b = some s) :
      Does m a b .cmp (.compared r s (.ofCompare (m.registers.get r) (m.registers.get s)))

/-! ### Looking up -/

/-- A lookup goes on exactly if the operand names a register. -/
theorem register_bind_eq_ok_iff {α : Type} {f : Register → Except Fault α} {x : α} :
    (m.register a >>= f) = .ok x ↔ ∃ r, Register.ofByte? a = some r ∧ f r = .ok x := by
  unfold register
  cases Register.ofByte? a with
  | none => exact iff_of_false (by rintro ⟨⟩) (by simp)
  | some r =>
    refine ⟨fun h => ⟨r, rfl, h⟩, ?_⟩
    rintro ⟨s, hs, h⟩
    -- an operand names one register only
    obtain rfl := Option.some.inj hs
    exact h

/-- An instruction with one register finds its deed if its operand names a register. -/
theorem register_map_eq_ok_iff {f : Register → Deed} :
    (m.register a >>= fun r => pure (f r)) = .ok d ↔
      ∃ r, Register.ofByte? a = some r ∧ d = f r := by
  rw [register_bind_eq_ok_iff]
  refine exists_congr fun r => and_congr_right fun _ => ?_
  exact ⟨fun h => (Except.ok.inj h).symm, fun h => congrArg Except.ok h.symm⟩

/-- With two registers, both operands have to name one. -/
theorem register_map₂_eq_ok_iff {f : Register → Register → Deed} :
    (m.register a >>= fun r => m.register b >>= fun s => pure (f r s)) = .ok d ↔
      ∃ r s, Register.ofByte? a = some r ∧ Register.ofByte? b = some s ∧ d = f r s := by
  rw [register_bind_eq_ok_iff]
  refine exists_congr fun r => ?_
  rw [register_map_eq_ok_iff, exists_and_left]

/-- Setting the stack pointer is seen in no other register. -/
theorem get_withStackPointer (m : Machine) (sp : Byte) (r : Register) :
    (m.withStackPointer sp).registers.get r =
      if r = .stackPointer then sp else m.registers.get r :=
  Registers.get_set ..

/-- The stack pointer is what it was set to. -/
@[simp] theorem sp_withStackPointer (m : Machine) (sp : Byte) :
    (m.withStackPointer sp).sp = sp := by
  rw [Machine.sp, get_withStackPointer, if_pos rfl]

/-- If the condition holds, the operand has to name a register, which has the target. -/
theorem branch_of_holds {c : Condition} (hc : c.holds m.flags) :
    m.branch c a = .ok d ↔
      ∃ r, Register.ofByte? a = some r ∧ d = .branched c a (some (m.registers.get r)) := by
  rw [branch, if_pos hc]
  exact register_map_eq_ok_iff

/-- If the condition does not hold, the operand is not looked at. -/
theorem branch_of_not_holds {c : Condition} (hc : ¬c.holds m.flags) :
    m.branch c a = .ok d ↔ d = .branched c a none := by
  rw [branch, if_neg hc]
  exact ⟨fun h => (Except.ok.inj h).symm, fun h => by rw [h]; rfl⟩

/-- The two conditions are opposites. -/
theorem holds_notEqual_iff {f : Flags} : Condition.notEqual.holds f ↔ ¬f.equal := by
  rw [Condition.holds, Bool.not_eq_true', Bool.not_eq_true]

/-- **The deed of an instruction is the one listed for it.** -/
theorem deed_eq_ok_iff : m.deed i a b = .ok d ↔ m.Does a b i d := by
  refine ⟨fun h => ?_, fun h => ?_⟩
  · -- what was looked up is in the deed, so the instruction and its registers give the case
    cases i with
    | hlt => obtain rfl := Except.ok.inj h; exact .halted
    | ret => obtain rfl := Except.ok.inj h; exact .returned
    | prn =>
      obtain ⟨r, hr, rfl⟩ := register_map_eq_ok_iff.mp h
      exact .printed hr
    | push =>
      obtain ⟨r, hr, rfl⟩ := register_map_eq_ok_iff.mp h
      -- the register is read from the machine with the decremented stack pointer
      rw [sp_withStackPointer, get_withStackPointer]
      exact .pushed hr
    | pop =>
      obtain ⟨r, hr, rfl⟩ := register_map_eq_ok_iff.mp h
      exact .popped hr
    | call =>
      obtain ⟨r, hr, rfl⟩ := register_map_eq_ok_iff.mp h
      -- as for a push, the decrement comes first
      rw [sp_withStackPointer, get_withStackPointer]
      exact .called hr
    | jmp =>
      obtain ⟨r, hr, rfl⟩ := register_map_eq_ok_iff.mp h
      exact .jumped hr
    | jeq =>
      -- the flag decides whether the operand is looked up at all
      by_cases hc : m.flags.equal
      · obtain ⟨r, hr, rfl⟩ := (branch_of_holds (c := .equal) hc).mp h
        exact .equalTaken hc hr
      · obtain rfl := (branch_of_not_holds (c := .equal) hc).mp h
        exact .equalNotTaken hc
    | jne =>
      by_cases hc : m.flags.equal
      · obtain rfl := (branch_of_not_holds (not_not_intro hc ∘ holds_notEqual_iff.mp)).mp h
        exact .notEqualNotTaken hc
      · obtain ⟨r, hr, rfl⟩ := (branch_of_holds (holds_notEqual_iff.mpr hc)).mp h
        exact .notEqualTaken hc hr
    | ldi =>
      obtain ⟨r, hr, rfl⟩ := register_map_eq_ok_iff.mp h
      exact .assigned hr
    | add =>
      obtain ⟨r, s, hr, hs, rfl⟩ := register_map₂_eq_ok_iff.mp h
      exact .added hr hs
    | mul =>
      obtain ⟨r, s, hr, hs, rfl⟩ := register_map₂_eq_ok_iff.mp h
      exact .multiplied hr hs
    | cmp =>
      obtain ⟨r, s, hr, hs, rfl⟩ := register_map₂_eq_ok_iff.mp h
      exact .compared hr hs
  · -- conversely, each case has all that the lookup of its instruction asks for
    cases h with
    | halted => rfl
    | returned => rfl
    | printed hr => exact register_map_eq_ok_iff.mpr ⟨_, hr, rfl⟩
    | pushed hr =>
      refine register_map_eq_ok_iff.mpr ⟨_, hr, ?_⟩
      simp only [sp_withStackPointer, get_withStackPointer]
      rfl
    | popped hr => exact register_map_eq_ok_iff.mpr ⟨_, hr, rfl⟩
    | called hr =>
      refine register_map_eq_ok_iff.mpr ⟨_, hr, ?_⟩
      simp only [sp_withStackPointer, get_withStackPointer]
      rfl
    | jumped hr => exact register_map_eq_ok_iff.mpr ⟨_, hr, rfl⟩
    | equalTaken hc hr => exact (branch_of_holds (c := .equal) hc).mpr ⟨_, hr, rfl⟩
    | equalNotTaken hc => exact (branch_of_not_holds (c := .equal) hc).mpr rfl
    | notEqualTaken hc hr => exact (branch_of_holds (holds_notEqual_iff.mpr hc)).mpr ⟨_, hr, rfl⟩
    | notEqualNotTaken hc =>
      exact (branch_of_not_holds (not_not_intro hc ∘ holds_notEqual_iff.mp)).mpr rfl
    | assigned hr => exact register_map_eq_ok_iff.mpr ⟨_, hr, rfl⟩
    | added hr hs => exact register_map₂_eq_ok_iff.mpr ⟨_, _, hr, hs, rfl⟩
    | multiplied hr hs => exact register_map₂_eq_ok_iff.mpr ⟨_, _, hr, hs, rfl⟩
    | compared hr hs => exact register_map₂_eq_ok_iff.mpr ⟨_, _, hr, hs, rfl⟩

/-- Only those operand bytes matter that the instruction has. -/
theorem deed_congr (ha : 1 ≤ i.operands → a = a') (hb : 2 ≤ i.operands → b = b') :
    m.deed i a b = m.deed i a' b' := by
  -- the instructions with the same number of operands are alike
  cases i with
  | hlt | ret => rfl
  | prn | push | pop | call | jmp | jeq | jne =>
    rw [ha (by decide)]
    rfl
  | ldi | add | mul | cmp => rw [ha (by decide), hb (by decide)]

/-! ### Putting into effect -/

/-- The sink takes the line of the deed, if it has one. -/
def CanPrint (m : Machine) (d : Deed) : Prop :=
  ∀ value, d.printed? = some value → m.sink.fits value.decimalLine

/-- The machine after a deed and its line. -/
def after (m : Machine) (d : Deed) : Machine :=
  { m.apply d with sink := m.sink.write d.line }

/-- What is applied does not depend on what the sink holds. -/
theorem apply_with_sink (m : Machine) (d : Deed) (s : Sink) :
    { m with sink := s }.apply d = { m.apply d with sink := s } := by
  -- the sink is no part of what any of the deeds reads or sets
  cases d <;> rfl

/-- Nothing is taken of nothing, even by a sink that is full. -/
theorem write_nil (s : Sink) : s.write [] = s := by
  obtain ⟨taken, limit⟩ := s
  cases limit <;> simp [Sink.write, Sink.accepted]

/-- A value is printed without a fault exactly if its line fits. -/
theorem fault_print (m : Machine) (value : Byte) :
    (m.print value).fault = none ↔ m.sink.fits value.decimalLine := by
  rw [print]
  split
  · next h => exact iff_of_true rfl h
  · next h => exact iff_of_false (by simp) h

/-- A deed is performed without a fault exactly if its line is taken. -/
theorem fault_perform : (m.perform d).fault = none ↔ m.CanPrint d := by
  unfold perform CanPrint
  cases d.printed? with
  | none =>
    rw [Outcome.andThen_quiet]
    exact iff_of_true rfl (by simp)
  | some value =>
    rw [Outcome.fault_andThen_eq_none_iff, fault_print]
    simp only [Option.some.injEq, forall_eq']
    -- nothing that comes behind the line can fail
    exact and_iff_left rfl

/-- A deed whose line is taken leaves the machine after it. -/
theorem machine_perform (h : m.CanPrint d) : (m.perform d).machine = m.after d := by
  unfold after Deed.line perform
  cases hd : d.printed? with
  | none =>
    rw [Outcome.andThen_quiet, write_nil]
    cases d <;> rfl
  | some value =>
    have hfault := (fault_print m value).mpr (h value hd)
    rw [Outcome.machine_andThen hfault]
    -- the line is written before the deed is applied, and neither notices the other
    exact apply_with_sink m d _

/-! ### Successful calls -/

/-- The instruction is executed without a fault and leaves the machine `m'`. -/
def Executes (m : Machine) (i : Instruction) (a b : Byte) (m' : Machine) : Prop :=
  (m.execute i a b).fault = none ∧ (m.execute i a b).machine = m'

/-- The deed that is found is performed. -/
theorem execute_of_does (h : m.Does a b i d) : m.execute i a b = m.perform d := by
  rw [execute, deed_eq_ok_iff.mpr h]

/-- Operand bytes that the instruction does not have make no difference. -/
theorem execute_congr (ha : 1 ≤ i.operands → a = a') (hb : 2 ≤ i.operands → b = b') :
    m.execute i a b = m.execute i a' b' := by
  rw [execute, execute, deed_congr ha hb]

/-- A call succeeds exactly if its instruction finds a deed whose line the sink takes. -/
theorem fault_execute_eq_none_iff :
    (m.execute i a b).fault = none ↔ ∃ d, m.Does a b i d ∧ m.CanPrint d := by
  refine ⟨fun h => ?_, ?_⟩
  · cases hd : m.deed i a b with
    -- where no deed is found, the call has failed
    | error fault =>
      rw [execute, hd] at h
      cases h
    | ok d =>
      have hdoes := deed_eq_ok_iff.mp hd
      rw [execute_of_does hdoes] at h
      exact ⟨d, hdoes, fault_perform.mp h⟩
  · rintro ⟨d, hdoes, hprint⟩
    rw [execute_of_does hdoes]
    exact fault_perform.mpr hprint

/-- **A successful call applies the deed of its instruction, and the sink takes its line.** -/
theorem executes_iff :
    m.Executes i a b m' ↔ ∃ d, m.Does a b i d ∧ m.CanPrint d ∧ m' = m.after d := by
  refine ⟨?_, ?_⟩
  · rintro ⟨hfault, rfl⟩
    obtain ⟨d, hdoes, hprint⟩ := fault_execute_eq_none_iff.mp hfault
    refine ⟨d, hdoes, hprint, ?_⟩
    rw [execute_of_does hdoes, machine_perform hprint]
  · rintro ⟨d, hdoes, hprint, rfl⟩
    refine ⟨fault_execute_eq_none_iff.mpr ⟨d, hdoes, hprint⟩, ?_⟩
    rw [execute_of_does hdoes, machine_perform hprint]

end Machine

end ByteMachine
