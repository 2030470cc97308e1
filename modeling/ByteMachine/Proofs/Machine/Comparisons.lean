import ByteMachine.Proofs.Machine.Calls
import ByteMachine.Proofs.Machine.Steps
import ByteMachine.Proofs.Machine.Table

/-!
# The flags tell the last comparison

Whoever calls a machine can keep a list of the values that have been compared since the flags were
last cleared. To do so it is enough to look at the machine in front of each call: a comparison is
made by `Call.compare`, and by a comparing instruction whose operands both name registers
(`Machine.comparison?`), whether it is executed from outside, by a step or by one of the steps of a
run. `Machine.Compared` keeps that list along any sequence of calls.

The flags are what the last entry of the list says (`Compared.flags_eq`). All the work is in
`flags_execute`: an instruction that fails, and every one that is no comparison, leaves the flags as
they are. What the flags say is then read in two ways, as a byte and by the conditional jumps
(`TellsLast`).
-/

namespace ByteMachine

/-! ### Comparisons in a row -/

namespace Flags

/-- The flags after comparisons that are made one after the other. -/
def comparing (f : Flags) (cs : List (Byte × Byte)) : Flags :=
  cs.foldl (fun _ c => .ofCompare c.1 c.2) f

variable {f : Flags} {cs ds : List (Byte × Byte)} {x y : Byte}

/-- Comparisons that come one after the other are made one after the other. -/
theorem comparing_append : f.comparing (cs ++ ds) = (f.comparing cs).comparing ds :=
  List.foldl_append

/-- Only the last comparison counts. -/
theorem comparing_of_getLast? (h : cs.getLast? = some (x, y)) :
    f.comparing cs = .ofCompare x y := by
  obtain ⟨before, rfl⟩ := List.getLast?_eq_some_iff.mp h
  rw [comparing_append]
  rfl

/-- The flag of equality is set exactly if the values are equal. -/
theorem equal_ofCompare : (ofCompare x y).equal ↔ x = y :=
  beq_iff_eq.trans (Option.some_inj.trans Std.compare_eq_iff_eq)

end Flags

/-- The comparisons meet the condition: the last one has found its values equal, or there was none
or it has not. -/
def Condition.MetBy (cs : List (Byte × Byte)) : Condition → Prop
  | equal => ∃ x, cs.getLast? = some (x, x)
  | notEqual => cs = [] ∨ ∃ x y, cs.getLast? = some (x, y) ∧ x ≠ y

namespace Machine

variable {m m' : Machine} {i : Instruction} {a b : Byte} {c : Condition} {o : Outcome} {n : Nat}
  {since since' : List (Byte × Byte)} {cs : List Call}

/-- A condition holds of the flags exactly if the comparisons meet it. -/
theorem holds_comparing_iff :
    c.holds (Flags.clear.comparing since) ↔ c.MetBy since := by
  -- with no comparison the flags are clear, otherwise they are those of the last one
  cases hlast : since.getLast? with
  | none =>
    obtain rfl := List.getLast?_eq_none_iff.mp hlast
    cases c with
    | equal => exact iff_of_false Bool.false_ne_true (fun ⟨x, hx⟩ => by cases hx)
    | notEqual => exact iff_of_true rfl (.inl rfl)
  | some values =>
    obtain ⟨x, y⟩ := values
    rw [Flags.comparing_of_getLast? hlast]
    cases c with
    | equal =>
      refine Flags.equal_ofCompare.trans ⟨?_, ?_⟩
      · rintro rfl
        exact ⟨x, hlast⟩
      · rintro ⟨z, hz⟩
        cases hlast.symm.trans hz
        rfl
    | notEqual =>
      refine (holds_notEqual_iff.trans (not_congr Flags.equal_ofCompare)).trans ⟨?_, ?_⟩
      · intro hne
        exact .inr ⟨x, y, hlast, hne⟩
      · rintro (rfl | ⟨x', y', hlast', hne⟩)
        · cases hlast
        · cases hlast.symm.trans hlast'
          exact hne

/-! ### What is compared -/

/-- The values that an instruction compares: those of its two registers, if it is a comparison and
if there are such registers. -/
def comparison? (m : Machine) (i : Instruction) (a b : Byte) : Option (Byte × Byte) :=
  match i, Register.ofByte? a, Register.ofByte? b with
  | .cmp, some r, some s => some (m.registers.get r, m.registers.get s)
  | _, _, _ => none

/-- The values that the next step compares. -/
def stepComparison? (m : Machine) : Option (Byte × Byte) :=
  if m.running then
    match Instruction.ofOpcode? (m.read m.pc) with
    | some i => m.comparison? i (m.read (m.pc + 1)) (m.read (m.pc + 2))
    | none => none
  else none

/-- The comparisons made in the next `n` steps. -/
def comparisons (m : Machine) (n : Nat) : List (Byte × Byte) :=
  m.collect (fun m => m.stepComparison?.toList) n

/-- Given the comparisons `since` the flags were last cleared, those after a call that has come back
with the outcome `o`. -/
def remember (m : Machine) (since : List (Byte × Byte)) (o : Outcome) : Call → List (Byte × Byte)
  | .step => since ++ m.comparisons 1
  | .run => since ++ m.comparisons o.steps
  | .execute i a b => since ++ (m.comparison? i a b).toList
  | .compare a b => since ++ [(a, b)]
  | .clearFlags => []
  | .load _ | .read _ | .write _ _ | .trace => since

/-- The calls lead from `m` to `m'`. If the comparisons made since the flags were last cleared are
`since` in front of the calls, they are `since'` behind them. -/
inductive Compared :
    Machine → List (Byte × Byte) → List Call → Machine → List (Byte × Byte) → Prop where
  | nil (m : Machine) (since : List (Byte × Byte)) : Compared m since [] m since
  | cons {m m' : Machine} {since since' : List (Byte × Byte)} {c : Call} {cs : List Call}
      {o : Outcome} (h : m.Returns c o)
      (hs : Compared o.machine (m.remember since o c) cs m' since') :
      Compared m since (c :: cs) m' since'

/-- Whatever calls are made, the comparisons among them can be listed. -/
theorem LeadsTo.exists_compared (h : m.LeadsTo cs m') (since : List (Byte × Byte)) :
    ∃ since', Compared m since cs m' since' := by
  -- by induction on the calls, for whatever has been compared before them
  induction h generalizing since with
  | nil m => exact ⟨since, .nil m since⟩
  | cons hreturns _ ih =>
    obtain ⟨since', hs⟩ := ih _
    exact ⟨since', .cons hreturns hs⟩

section

variable {r s : Register} {values : Byte × Byte}

/-- A comparison whose operands name registers compares their contents. -/
theorem comparison?_of_named (hr : Register.ofByte? a = some r) (hs : Register.ofByte? b = some s) :
    m.comparison? .cmp a b = some (m.registers.get r, m.registers.get s) := by
  unfold comparison?
  rw [hr, hs]

/-- Values are compared only by a comparison whose operands name registers. -/
theorem named_of_comparison? (h : m.comparison? i a b = some values) :
    i = .cmp ∧ ∃ r s, Register.ofByte? a = some r ∧ Register.ofByte? b = some s := by
  unfold comparison? at h
  split at h
  · next r s hr hs => exact ⟨rfl, r, s, hr, hs⟩
  · cases h

end

/-- A comparison counts if it does not fail. -/
theorem fault_execute_cmp_iff :
    (m.execute .cmp a b).fault = none ↔ (m.comparison? .cmp a b).isSome := by
  rw [fault_execute_eq_none_iff, Option.isSome_iff_exists]
  constructor
  · rintro ⟨d, hdoes, -⟩
    cases hdoes with
    | compared hr hs => exact ⟨_, comparison?_of_named hr hs⟩
  · rintro ⟨values, h⟩
    obtain ⟨-, r, s, hr, hs⟩ := named_of_comparison? h
    refine ⟨_, .compared hr hs, ?_⟩
    -- a comparison prints nothing, so it does not fail for want of room
    intro value hprinted
    cases hprinted

/-! ### The flags behind a call -/

/-- **An instruction that does not compare leaves the flags alone.** -/
theorem flags_execute (m : Machine) (i : Instruction) (a b : Byte) :
    (m.execute i a b).machine.flags = m.flags.comparing (m.comparison? i a b).toList := by
  obtain ⟨fault, hrefuses, hyields⟩ | ⟨d, hdoes, -, hyields⟩ | ⟨d, hdoes, hprint, hyields⟩ :=
    m.execute_cases i a b
  · rw [hyields.machine]
    cases hcompares : m.comparison? i a b with
    | none => rfl
    | some values =>
      -- an instruction that is refused does not compare
      obtain ⟨rfl, r, s, hr, hs⟩ := named_of_comparison? hcompares
      cases (deed_eq_error_iff.mpr hrefuses).symm.trans (deed_eq_ok_iff.mpr (.compared hr hs))
  · rw [hyields.machine]
    cases hdoes with
    | compared hr hs =>
      rw [comparison?_of_named hr hs]
      rfl
    | _ => rfl
  · -- and one that cannot print does not either
    obtain ⟨value, hd, -⟩ := not_canPrint_iff.mp hprint
    obtain ⟨rfl, -⟩ := hdoes.of_printed hd
    rw [hyields.machine]
    rfl

/-- A step changes the flags by its own comparison, if it makes one. -/
theorem flags_step (m : Machine) :
    m.step.machine.flags = m.flags.comparing m.stepComparison?.toList := by
  unfold stepComparison?
  cases hrunning : m.running with
  | false =>
    rw [step_of_not_running hrunning]
    rfl
  | true =>
    rw [if_pos rfl]
    obtain ⟨i, hi⟩ | hillegal := opcode_cases (m.read m.pc)
    · rw [Instruction.ofOpcode?_eq_some_iff.mpr hi]
      show _ = m.flags.comparing (m.comparison? i _ _).toList
      rw [← flags_execute]
      -- whether the call of the instruction fails or not, the step takes the flags from it
      cases hfault : (m.fetch i).fault with
      | none => rw [machine_step_of_none hrunning hi hfault, fetch]
      | some fault => rw [machine_step_of_some hrunning hi hfault, fetch]
    · rw [Instruction.ofOpcode?_eq_none_iff.mpr hillegal,
        (step_of_error (finding_of_illegal hrunning hillegal)).machine]
      rfl

/-- Steps change the flags by the comparisons that they make. -/
theorem flags_stepped : (m.stepped n).flags = m.flags.comparing (m.comparisons n) := by
  -- by induction on the steps, each of which adds its own comparison to the list
  induction n with
  | zero => rfl
  | succ n ih =>
    rw [stepped_succ, flags_step, ih, ← Flags.comparing_append, comparisons, comparisons,
      collect_succ]

/-- **The list keeps up with the flags** in every call. -/
theorem Returns.flags_eq {call : Call} (h : m.Returns call o)
    (hm : m.flags = Flags.clear.comparing since) :
    o.machine.flags = Flags.clear.comparing (m.remember since o call) := by
  -- a step and a run go back to `flags_stepped`, the others are seen at once
  cases h with
  | step =>
    rw [remember, Flags.comparing_append, ← hm]
    exact flags_stepped (n := 1)
  | run hrun =>
    rw [remember, Flags.comparing_append, ← hm, machine_of_run? hrun]
    exact flags_stepped
  | execute i a b =>
    rw [remember, Flags.comparing_append, ← hm]
    exact flags_execute m i a b
  | load program =>
    unfold Machine.load
    -- whether or not the program fits, only memory is written
    split
    · exact hm
    · exact hm
  | compare a b =>
    rw [remember, Flags.comparing_append]
    rfl
  | clearFlags => rfl
  | read | write | trace => exact hm

/-- The list keeps up with the flags in any sequence of calls. -/
theorem Compared.flags_eq (h : Compared m since cs m' since')
    (hm : m.flags = Flags.clear.comparing since) : m'.flags = Flags.clear.comparing since' := by
  -- by induction on the calls, each of which starts from the flags and the list of the one before
  induction h with
  | nil => exact hm
  | cons hreturns _ ih =>
    apply ih
    exact hreturns.flags_eq hm

/-! ### Conditional jumps -/

/-- The outcome is that of a conditional jump which is taken. It goes to the address in its
register, and fails if there is no such register. -/
def JumpTaken (m : Machine) (c : Condition) (a : Byte) (o : Outcome) : Prop :=
  match Register.ofByte? a with
  | some r => o.fault = none ∧ o.machine.pc = m.registers.get r ∧
      o.entries.getLast? = some (.did (.branched c a (some (m.registers.get r))))
  | none => o.fault = some (.invalidRegister a m.pc)

/-- The outcome is that of a conditional jump which is not taken. It goes on behind itself, whatever
its operand is. -/
def JumpNotTaken (m : Machine) (c : Condition) (a : Byte) (o : Outcome) : Prop :=
  o.fault = none ∧ o.machine.pc = m.pc + 2 ∧
    o.entries.getLast? = some (.did (.branched c a none))

/-- The jump is taken exactly if `p` holds. -/
structure JumpsIf (m : Machine) (c : Condition) (a : Byte) (o : Outcome) (p : Prop) : Prop where
  taken : m.JumpTaken c a o ↔ p
  notTaken : m.JumpNotTaken c a o ↔ ¬p

/-- A jump that is taken is not one that is not taken. -/
theorem not_jumpNotTaken (h : m.JumpTaken c a o) : ¬m.JumpNotTaken c a o := by
  rintro ⟨hfault, -, hentry⟩
  unfold JumpTaken at h
  -- the journal tells the two apart, even if the jump leads to where it would have gone on
  split at h
  · cases h.2.2.symm.trans hentry
  · cases h.symm.trans hfault

/-- A conditional jump looks up its branch. -/
theorem deed_of_condition (m : Machine) (c : Condition) (a b : Byte) :
    m.deed c.instruction a b = m.branch c a := by
  cases c <;> rfl

/-- If the condition holds, the jump is taken. -/
theorem jumpTaken_execute (h : c.holds m.flags) :
    m.JumpTaken c a (m.execute c.instruction a b) := by
  unfold JumpTaken
  rw [execute, deed_of_condition]
  -- a jump that is taken asks for its register
  cases hr : Register.ofByte? a with
  | none =>
    have hdeed : m.branch c a = .error (.invalidRegister a m.pc) := by
      rw [branch, if_pos h, register, hr]
      rfl
    rw [hdeed]
    rfl
  | some r =>
    rw [(branch_of_holds h).mpr ⟨r, hr, rfl⟩]
    exact ⟨rfl, rfl, rfl⟩

/-- If the condition does not hold, the jump is not taken. -/
theorem jumpNotTaken_execute (h : ¬c.holds m.flags) :
    m.JumpNotTaken c a (m.execute c.instruction a b) := by
  have hwidth : UInt8.ofNat c.instruction.width = 2 := by
    cases c <;> rfl
  rw [execute, deed_of_condition, (branch_of_not_holds h).mpr rfl]
  exact ⟨rfl, congrArg (m.pc + ·) hwidth, rfl⟩

/-- To know that a jump is taken exactly if `p` holds, both cases have to be seen. -/
theorem JumpsIf.of_cases {p : Prop} (htaken : p → m.JumpTaken c a o)
    (hnot : ¬p → m.JumpNotTaken c a o) : m.JumpsIf c a o p := by
  by_cases hp : p
  · exact ⟨iff_of_true (htaken hp) hp,
      iff_of_false (not_jumpNotTaken (htaken hp)) (not_not_intro hp)⟩
  · exact ⟨iff_of_false (fun h => not_jumpNotTaken h (hnot hp)) hp, iff_of_true (hnot hp) hp⟩

section

variable (hrunning : m.running) (hi : m.read m.pc = c.instruction.opcode)

include hrunning hi

/-- The last entry of a step is that of the call it makes. -/
theorem getLast?_entries_step {entry : Entry} (hfault : (m.fetch c.instruction).fault = none)
    (hentry : (m.fetch c.instruction).entries.getLast? = some entry) :
    m.step.entries.getLast? = some entry := by
  have hsame : (m.fetch c.instruction).stopOnFault = m.fetch c.instruction := by
    rw [Outcome.stopOnFault, hfault]
  -- the step itself notes only what it has fetched, and does so in front
  rw [step_of_opcode hrunning hi, Outcome.entries_andThen rfl, hsame, List.getLast?_append, hentry]
  rfl

/-- A step takes the jump that it has fetched. -/
theorem jumpTaken_step (h : m.JumpTaken c (m.read (m.pc + 1)) (m.fetch c.instruction)) :
    m.JumpTaken c (m.read (m.pc + 1)) m.step := by
  unfold JumpTaken at h ⊢
  split at h
  · obtain ⟨hfault, hpc, hentry⟩ := h
    refine ⟨(fault_step hrunning hi).trans hfault, ?_, ?_⟩
    · rw [machine_step_of_none hrunning hi hfault, hpc]
    · exact getLast?_entries_step hrunning hi hfault hentry
  · exact (fault_step hrunning hi).trans h

/-- A step does not take a jump that what it has fetched does not take. -/
theorem jumpNotTaken_step (h : m.JumpNotTaken c (m.read (m.pc + 1)) (m.fetch c.instruction)) :
    m.JumpNotTaken c (m.read (m.pc + 1)) m.step := by
  obtain ⟨hfault, hpc, hentry⟩ := h
  refine ⟨(fault_step hrunning hi).trans hfault, ?_, ?_⟩
  · rw [machine_step_of_none hrunning hi hfault, hpc]
  · exact getLast?_entries_step hrunning hi hfault hentry

end

/-! ### What the flags tell -/

/-- The flags tell the last of the comparisons `since` they were last cleared. -/
structure TellsLast (m : Machine) (since : List (Byte × Byte)) : Prop where
  bits_mem : m.flags.bits ∈ [0, 1, 2, 4]
  bits_eq_zero : m.flags.bits = 0 ↔ since = []
  bits_eq : ∀ x y, since.getLast? = some (x, y) →
    m.flags.bits = if x.toNat = y.toNat then 1 else if y.toNat < x.toNat then 2 else 4
  /-- A conditional jump goes by them, whichever register it names. -/
  execute : ∀ (c : Condition) (a b : Byte),
    m.JumpsIf c a (m.execute c.instruction a b) (c.MetBy since)
  step : m.running → ∀ c : Condition, m.read m.pc = c.instruction.opcode →
    m.JumpsIf c (m.read (m.pc + 1)) m.step (c.MetBy since)

/-- Flags that keep up with the comparisons tell the last one. -/
theorem tellsLast_of_flags_eq (h : m.flags = Flags.clear.comparing since) : m.TellsLast since := by
  have hmet (c : Condition) : c.holds m.flags ↔ c.MetBy since := by
    rw [h]
    exact holds_comparing_iff
  have hexecute (c : Condition) (a b : Byte) :
      m.JumpsIf c a (m.execute c.instruction a b) (c.MetBy since) :=
    .of_cases (fun hc => jumpTaken_execute ((hmet c).mpr hc))
      (fun hc => jumpNotTaken_execute (mt (hmet c).mp hc))
  have hbits (x y : Byte) (hlast : since.getLast? = some (x, y)) :
      m.flags.bits = if x.toNat = y.toNat then 1 else if y.toNat < x.toNat then 2 else 4 := by
    rw [h, Flags.comparing_of_getLast? hlast, Flags.bits_ofCompare]
  refine ⟨?_, ?_, hbits, hexecute, ?_⟩
  · -- whatever the last outcome is
    obtain ⟨_ | _ | _ | _⟩ := m.flags <;> decide
  · cases hlast : since.getLast? with
    | none =>
      obtain rfl := List.getLast?_eq_none_iff.mp hlast
      rw [h]
      exact iff_of_true rfl rfl
    | some values =>
      refine iff_of_false ?_ ?_
      · -- each of the three outcomes has its own bit
        rw [hbits _ _ hlast]
        split
        · decide
        · split <;> decide
      · rintro rfl
        cases hlast
  · intro hrunning c hi
    -- a step jumps if the instruction does that it has fetched
    have hfetch : m.JumpsIf c (m.read (m.pc + 1)) (m.fetch c.instruction) (c.MetBy since) :=
      hexecute c _ _
    refine .of_cases ?_ ?_
    · intro hc
      exact jumpTaken_step hrunning hi (hfetch.taken.mpr hc)
    · intro hc
      exact jumpNotTaken_step hrunning hi (hfetch.notTaken.mpr hc)

/-- **The flags tell the last comparison**, at the end of any calls to a machine and at every point
of a run from there on. The comparisons are those that do not fail, and none counts any more when
the flags have been cleared. -/
theorem flags_tell_last_comparison {sink : Sink} (h : (fresh sink).LeadsTo cs m) :
    (∃ since, Compared (fresh sink) [] cs m since) ∧
    (∀ since, Compared (fresh sink) [] cs m since →
      ∀ k, (m.stepped k).TellsLast (since ++ m.comparisons k)) ∧
    ∀ (m : Machine) (a b : Byte),
      (m.execute .cmp a b).fault = none ↔ (m.comparison? .cmp a b).isSome := by
  refine ⟨h.exists_compared [], ?_, fun _ _ _ => fault_execute_cmp_iff⟩
  intro since hcompared k
  -- no comparison has been made when the machine is new
  have hflags : m.flags = Flags.clear.comparing since := hcompared.flags_eq rfl
  apply tellsLast_of_flags_eq
  rw [flags_stepped, hflags, Flags.comparing_append]

/-- After a comparison that finds its values equal, one of the registers changes and another
comparison fails. -/
theorem flags_tell_last_comparison_equal :
    let calls : List Call := [.compare 3 9, .clearFlags, .execute .ldi 0 5, .execute .cmp 0 0,
      .execute .ldi 0 6, .execute .cmp 0 8]
    ∃ m since, (fresh .unlimited).LeadsTo calls m ∧ Compared (fresh .unlimited) [] calls m since ∧
      m.flags.bits = 1 ∧ ∀ k, (m.stepped k).TellsLast (since ++ m.comparisons k) := by
  intro calls
  have hleads : (fresh .unlimited).LeadsTo calls _ :=
    .cons (.compare 3 9) (.cons .clearFlags (.cons (.execute .ldi 0 5) (.cons (.execute .cmp 0 0)
      (.cons (.execute .ldi 0 6) (.cons (.execute .cmp 0 8) (.nil _))))))
  obtain ⟨⟨since, hcompared⟩, htells, -⟩ := flags_tell_last_comparison hleads
  exact ⟨_, since, hleads, hcompared, by decide +kernel, htells since hcompared⟩

end Machine

end ByteMachine
