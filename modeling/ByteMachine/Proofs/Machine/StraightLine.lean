import ByteMachine.Proofs.Machine.Commands
import ByteMachine.Proofs.Machine.Run
import ByteMachine.Proofs.Memory.Blocks
import Mathlib.Data.List.Induction

/-!
# Straight-line code

Commands that never jump can be encoded one after the other, with a halt at the end. Run from its
first byte, the code does what the commands do when they are executed one by one, for as long as no
push writes over the code.

`Follows` is the invariant behind this: after as many steps as there are commands in a prefix, the
run is where executing the prefix leads, with the program counter at the code of the next command
and the whole code still in memory. It holds at the start (`follows_nil`) and is carried over by one
step (`Follows.concat`). What is left is the last step, which is a halt or the first fault.
-/

namespace ByteMachine

namespace Command

/-- The encoding of a command: the opcode, and the operand bytes that it uses. -/
def bytes (c : Command) : List Byte :=
  c.instruction.opcode :: [c.a, c.b].take c.instruction.operands

/-- The commands that go on behind themselves. -/
def IsStraight (c : Command) : Prop :=
  c.instruction ∈ [.ldi, .prn, .add, .mul, .cmp, .push, .pop]

instance : DecidablePred IsStraight := fun _ => inferInstanceAs (Decidable (_ ∈ _))

/-- The encoding of a command is as long as its instruction is wide. -/
theorem length_bytes (c : Command) : c.bytes.length = c.instruction.width := by
  -- no instruction has more operands than a command has
  have hle : c.instruction.operands ≤ 2 := by cases c.instruction <;> decide
  rw [bytes, List.length_cons, List.length_take, Instruction.width]
  exact congrArg (· + 1) (Nat.min_eq_left hle)

end Command

/-- The code of the commands, with a halt behind them. -/
def encode (cs : List Command) : List Byte :=
  cs.flatMap Command.bytes ++ [Instruction.hlt.opcode]

namespace Machine

variable {m m' : Machine} {i : Instruction} {c : Command} {u v cs : List Command}
  {a b : Byte} {p : Address}

/-- No push that takes place among the commands writes to the `n` cells from the program counter
on. -/
def Spares (m : Machine) (cs : List Command) (n : Nat) : Prop :=
  ∀ u c, u ++ [c] <+: cs → c.instruction = .push → (m.executeAll (u ++ [c])).fault = none →
    ∀ k < n, (m.afterAll u).sp - 1 ≠ m.pc + UInt8.ofNat k

/-! ### One command -/

/-- Those of the operand bytes that are in memory are read from there. -/
theorem read_of_holdsAt_take {n : Nat} (h : m.memory.HoldsAt p ([a, b].take n)) :
    (1 ≤ n → m.read p = a) ∧ (2 ≤ n → m.read (p + 1) = b) := by
  match n, h with
  | 0, _ => exact ⟨by omega, by omega⟩
  | 1, ⟨ha, _⟩ => exact ⟨fun _ => ha, by omega⟩
  | n + 2, ⟨ha, hb, _⟩ => exact ⟨fun _ => ha, fun _ => hb⟩

/-- A machine in front of the code of a command fetches the command. -/
theorem fetch_of_holdsAt (h : m.memory.HoldsAt m.pc c.bytes) :
    m.read m.pc = c.instruction.opcode ∧
      m.fetch c.instruction = m.execute c.instruction c.a c.b := by
  obtain ⟨hopcode, hoperands⟩ := h
  obtain ⟨ha, hb⟩ := read_of_holdsAt_take hoperands
  rw [UInt8.add_assoc] at hb
  -- the operand bytes that are not in memory do not matter
  exact ⟨hopcode, execute_congr ha hb⟩

/-- A straight command goes on behind itself, and writes to memory only if it pushes. -/
theorem Executes.of_isStraight (h : m.Executes c.instruction c.a c.b m') (hc : c.IsStraight) :
    m'.running = m.running ∧ m'.pc = m.pc + UInt8.ofNat c.bytes.length ∧
      (m'.memory = m.memory ∨
        c.instruction = .push ∧ ∃ value, m'.memory = m.memory.write (m.sp - 1) value) := by
  rw [c.length_bytes]
  obtain ⟨i, a, b⟩ := c
  obtain ⟨d, hdoes, -, rfl⟩ := executes_iff.mp h
  cases hdoes with
  -- these commands do not go on behind themselves
  | halted | returned | called | jumped => simp [Command.IsStraight] at hc
  | equalTaken | equalNotTaken | notEqualTaken | notEqualNotTaken =>
    simp [Command.IsStraight] at hc
  | pushed => exact ⟨rfl, rfl, .inr ⟨rfl, _, rfl⟩⟩
  | printed | popped | assigned | added | multiplied | compared => exact ⟨rfl, rfl, .inl rfl⟩

/-! ### Following the commands -/

/-- After as many steps as there are commands in `u`, the run is where executing them leads. -/
structure Follows (m : Machine) (code : List Byte) (u : List Command) : Prop where
  executed : (m.executeAll u).fault = none
  fault : (m.advance u.length).fault = none
  machine : (m.advance u.length).machine = m.afterAll u
  output : (m.advance u.length).output = (m.executeAll u).output
  running : (m.afterAll u).running
  pc : (m.afterAll u).pc = m.pc + UInt8.ofNat (u.flatMap Command.bytes).length
  code : (m.afterAll u).memory.HoldsAt m.pc code

/-- Before the first command nothing has been executed. -/
theorem follows_nil {code : List Byte} (hrunning : m.running)
    (hcode : m.memory.HoldsAt m.pc code) : m.Follows code [] where
  executed := rfl
  fault := rfl
  machine := rfl
  output := rfl
  running := hrunning
  pc := (Memory.add_ofNat_zero m.pc).symm
  code := hcode

section

variable {code : List Byte} (h : m.Follows code u)

include h

/-- A run that follows the commands is not over yet. -/
theorem Follows.not_isOver : ¬(m.advance u.length).isOver := by
  rw [Outcome.not_isOver_iff, h.machine]
  exact ⟨h.fault, h.running⟩

/-- The next step is made by the machine that executing the commands leaves. -/
theorem Follows.advance_succ :
    (m.advance (u.length + 1)).fault = (m.afterAll u).step.fault ∧
      (m.advance (u.length + 1)).machine = (m.afterAll u).step.machine ∧
      (m.advance (u.length + 1)).output =
        (m.executeAll u).output ++ (m.afterAll u).step.output := by
  rw [Machine.advance_succ h.not_isOver, ← h.machine, ← h.output]
  exact ⟨Outcome.fault_andThen h.fault, Outcome.machine_andThen h.fault,
    Outcome.output_andThen h.fault⟩

/-- The run ends if the next step stops the machine or fails. -/
theorem Follows.runEnds (hover : (m.afterAll u).step.isOver) :
    m.RunEnds (u.length + 1) (m.afterAll u).step.machine (m.afterAll u).step.fault
      ((m.executeAll u).output ++ (m.afterAll u).step.output) := by
  obtain ⟨hfault, hmachine, houtput⟩ := h.advance_succ
  have hover' : (m.advance (u.length + 1)).isOver := by
    rw [Outcome.isOver, hfault, hmachine]
    exact hover
  rw [← hfault, ← hmachine, ← houtput]
  exact runEnds_of_advance h.not_isOver hover'

/-- The call that executing one more command makes. -/
theorem Follows.executeAll_concat (c : Command) :
    (m.executeAll (u ++ [c])).fault =
        ((m.afterAll u).execute c.instruction c.a c.b).fault ∧
      m.afterAll (u ++ [c]) = ((m.afterAll u).execute c.instruction c.a c.b).machine ∧
      (m.executeAll (u ++ [c])).output =
        (m.executeAll u).output ++ ((m.afterAll u).execute c.instruction c.a c.b).output := by
  have hconcat := executeAll_append m u [c]
  simp only [executeAll_singleton] at hconcat
  unfold afterAll
  rw [hconcat]
  exact ⟨Outcome.fault_andThen h.executed, Outcome.machine_andThen h.executed,
    Outcome.output_andThen h.executed⟩

end

section

variable (h : m.Follows (encode cs) u) (hpre : u ++ [c] <+: cs)

include h hpre

/-- The machine has come to the code of the next command, and so makes the same call. -/
theorem Follows.fetch :
    (m.afterAll u).read (m.afterAll u).pc = c.instruction.opcode ∧
      (m.afterAll u).fetch c.instruction =
        (m.afterAll u).execute c.instruction c.a c.b := by
  obtain ⟨v, rfl⟩ := hpre
  -- behind the code of `u` comes the code of `c`
  have hencode : encode (u ++ [c] ++ v) = u.flatMap Command.bytes ++ (c.bytes ++ encode v) := by
    simp [encode]
  have hcode := h.code
  rw [hencode, Memory.holdsAt_append, Memory.holdsAt_append, ← h.pc] at hcode
  exact fetch_of_holdsAt hcode.2.1

/-- **The invariant is carried over by a command that does not fail.** -/
theorem Follows.concat (hc : c.IsStraight) (hspares : m.Spares cs (encode cs).length)
    (hok : (m.executeAll (u ++ [c])).fault = none) : m.Follows (encode cs) (u ++ [c]) := by
  obtain ⟨hopcode, hfetch⟩ := h.fetch hpre
  obtain ⟨hfault, hmachine, houtput⟩ := h.executeAll_concat c
  rw [hok] at hfault
  obtain ⟨hrunning, hpc, hmemory⟩ :=
    Executes.of_isStraight (m := m.afterAll u) ⟨hfault.symm, hmachine.symm⟩ hc
  -- the step makes the same call as executing the command
  obtain ⟨hfault', hmachine', houtput'⟩ := h.advance_succ
  rw [fault_step h.running hopcode, hfetch, ← hfault] at hfault'
  rw [machine_step_of_none h.running hopcode (by rw [hfetch]; exact hfault.symm), hfetch,
    ← hmachine] at hmachine'
  rw [output_step h.running hopcode, hfetch, ← houtput] at houtput'
  rw [← List.length_singleton (a := c), ← List.length_append] at hfault' hmachine' houtput'
  refine ⟨hok, hfault', hmachine', houtput', ?_, ?_, ?_⟩
  · rw [hrunning]
    exact h.running
  · rw [hpc, h.pc, List.flatMap_append, List.flatMap_singleton, List.length_append,
      UInt8.ofNat_add, UInt8.add_assoc]
  · -- the code stays in memory, since only a push writes and no push writes there
    obtain hmemory | ⟨hpush, value, hmemory⟩ := hmemory
    · rw [hmemory]
      exact h.code
    · rw [hmemory]
      exact h.code.write (hspares u c hpre hpush hok)

/-- At the first command that fails the run ends. -/
theorem Follows.runEnds_of_fault {fault : Fault}
    (hfail : (m.executeAll (u ++ [c])).fault = some fault) :
    m.RunEnds (u.length + 1) { m.afterAll (u ++ [c]) with running := false } (some fault)
      (m.executeAll (u ++ [c])).output := by
  obtain ⟨hopcode, hfetch⟩ := h.fetch hpre
  obtain ⟨hfault, hmachine, houtput⟩ := h.executeAll_concat c
  have hfail' : ((m.afterAll u).fetch c.instruction).fault = some fault := by
    rw [hfetch, ← hfault, hfail]
  have hstep : (m.afterAll u).step.fault = some fault :=
    (fault_step h.running hopcode).trans hfail'
  have hends := h.runEnds (Outcome.isOver_of_fault hstep)
  rw [hstep, machine_step_of_some h.running hopcode hfail', output_step h.running hopcode, hfetch,
    ← hmachine, ← houtput] at hends
  exact hends

end

/-- Behind the last command the machine halts. -/
theorem Follows.runEnds_of_halt (h : m.Follows (encode cs) cs) :
    m.RunEnds (cs.length + 1)
      { m.afterAll cs with pc := m.pc + UInt8.ofNat (encode cs).length, running := false } none
      (m.executeAll cs).output := by
  have hcode := h.code
  rw [encode, Memory.holdsAt_append, ← h.pc] at hcode
  have hopcode : (m.afterAll cs).read (m.afterAll cs).pc = Instruction.hlt.opcode := hcode.2.1
  have hpc : m.pc + UInt8.ofNat (encode cs).length =
      (m.afterAll cs).pc + UInt8.ofNat Instruction.hlt.width := by
    -- the code is one byte longer than its commands, and that is the width of the halt
    rw [h.pc, encode, List.length_append, UInt8.ofNat_add, UInt8.add_assoc]
    rfl
  have hok : ((m.afterAll cs).fetch .hlt).fault = none := rfl
  have hmachine := machine_step_of_none h.running hopcode hok
  have hends := h.runEnds (Outcome.isOver_of_not_running (congrArg Machine.running hmachine))
  rw [fault_step h.running hopcode, hmachine, output_step h.running hopcode] at hends
  rw [hpc, ← List.append_nil (m.executeAll cs).output]
  exact hends

/-- **The run follows the commands for as long as they do not fail.** -/
theorem follows_of_prefix (hrunning : m.running) (hcode : m.memory.HoldsAt m.pc (encode cs))
    (hstraight : ∀ c ∈ cs, c.IsStraight) (hspares : m.Spares cs (encode cs).length)
    (hu : u <+: cs) (hok : (m.executeAll u).fault = none) : m.Follows (encode cs) u := by
  -- by induction on the commands, each of which is followed as long as those in front have not
  -- failed
  induction u using List.reverseRecOn with
  | nil => exact follows_nil hrunning hcode
  | append_singleton u c ih =>
    have hc : c ∈ cs := hu.subset (by simp)
    have hok' : (m.executeAll u).fault = none := by
      rw [executeAll_append, Outcome.fault_andThen_eq_none_iff] at hok
      exact hok.1
    exact (ih ((List.prefix_append ..).trans hu) hok').concat hu (hstraight c hc) hspares hok

/-- **Straight-line code does what its commands do one by one.** If none of them fails, the run
takes one step for each and one for the halt. If one of them fails, the run fails at that step, with
the same fault. -/
theorem run_encode {mem : Memory} (hrunning : m.running) (hstraight : ∀ c ∈ cs, c.IsStraight)
    (hlength : (encode cs).length ≤ 256) (hcode : m.memory = mem.writeAll m.pc (encode cs))
    (hspares : m.Spares cs (encode cs).length) :
    ((m.executeAll cs).fault = none →
      m.RunEnds (cs.length + 1)
        { m.afterAll cs with pc := m.pc + UInt8.ofNat (encode cs).length, running := false } none
        (m.executeAll cs).output) ∧
      ∀ u c fault, u ++ [c] <+: cs → (m.executeAll u).fault = none →
        (m.executeAll (u ++ [c])).fault = some fault →
        m.RunEnds (u.length + 1) { m.afterAll (u ++ [c]) with running := false } (some fault)
          (m.executeAll (u ++ [c])).output := by
  have hholds : m.memory.HoldsAt m.pc (encode cs) := by
    rw [hcode]
    -- the code is not longer than memory, so all of it is there
    exact Memory.holdsAt_writeAll hlength
  have hfollows {u : List Command} := follows_of_prefix (u := u) hrunning hholds hstraight hspares
  refine ⟨fun hok => (hfollows List.prefix_rfl hok).runEnds_of_halt, ?_⟩
  intro u c fault hpre hok hfail
  exact (hfollows ((List.prefix_append ..).trans hpre) hok).runEnds_of_fault hpre hfail

/-- Code that runs around the last cell, with the stack below it. -/
theorem run_encode_wrapping :
    let cs : List Command := [⟨.ldi, 0, 5⟩, ⟨.push, 0, 0⟩]
    let m : Machine :=
      { fresh .unlimited with
        pc := 0xFE
        registers := Registers.zero.set 7 0x80
        memory := Memory.zero.writeAll 0xFE (encode cs) }
    m.Spares cs (encode cs).length ∧ (m.executeAll cs).fault = none ∧
      m.RunEnds 3 { m.afterAll cs with pc := 4, running := false } none
        (m.executeAll cs).output := by
  intro cs m
  have hspares : m.Spares cs (encode cs).length := by
    intro u c hpre hpush _
    -- the push comes second, so the two commands are all that can stand in front of it
    obtain _ | ⟨x, _ | ⟨y, u⟩⟩ := u
    · obtain ⟨rfl, -⟩ := List.cons_prefix_cons.mp hpre
      cases hpush
    · obtain ⟨rfl, -⟩ := List.cons_prefix_cons.mp hpre
      decide +kernel
    · have hle := hpre.length_le
      simp [cs] at hle
  have hok : (m.executeAll cs).fault = none := by decide +kernel
  have hpc : m.pc + UInt8.ofNat (encode cs).length = 4 := by decide
  have hrun := (run_encode rfl (by decide) (by decide) rfl hspares).1 hok
  rw [hpc] at hrun
  exact ⟨hspares, hok, hrun⟩

end Machine

end ByteMachine
