import ByteMachine.Proofs.Machine.Steps
import Mathlib.Data.Set.Defs

/-!
# What is stored in memory

Only a push and a call write to memory, and each of them writes to one cell, the new top of the
stack. `Deed.store?` is that cell with its new content; all that a deed does to memory is
`Deed.storeIn`. Everything else, a step that fails included, leaves memory alone.

`Machine.Stores` says the same of a step without mentioning its deed: what has to stand at the
program counter, and what is stored then. Where nothing is stored, a cell stays as it is
(`read_stepped_eq`), so after any number of steps its content is what was stored there last
(`StoredLast.read`), and if nothing ever was, what it has been at the beginning
(`NeverStored.read`).
-/

namespace ByteMachine

namespace Deed

/-- The cell that the deed writes to, and what it writes there. -/
def store? : Deed → Option (Address × Byte)
  | pushed _ value sp => some (sp, value)
  | called _ _ back sp => some (sp, back)
  | _ => none

/-- The memory after the deed. -/
def storeIn (d : Deed) (memory : Memory) : Memory :=
  match d.store? with
  | some (cell, value) => memory.write cell value
  | none => memory

end Deed

namespace Machine

variable {m : Machine} {d : Deed} {fault : Fault} {x : Address} {v : Byte} {n k : Nat}

/-- The machine with another memory. -/
def withMemory (m : Machine) (memory : Memory) : Machine :=
  { m with memory := memory }

/-- The next step is a push or a call that succeeds, and it stores `v` in the cell `x`. -/
inductive Stores (m : Machine) : Address → Byte → Prop where
  /-- A push stores the content that its register has after the decrement. -/
  | push {r : Register} (hok : m.step.fault = none)
      (hi : m.read m.pc = Instruction.push.opcode) (hr : (m.read (m.pc + 1)).toNat = r) :
      Stores m (m.sp - 1) (m.lowered r)
  /-- A call stores the address behind itself. -/
  | call (hok : m.step.fault = none) (hi : m.read m.pc = Instruction.call.opcode) :
      Stores m (m.sp - 1) (m.pc + 2)

/-! ### One step -/

/-- A deed does to memory what it does to any other memory in its place, and whatever else it does
has nothing to do with memory. -/
theorem after_withMemory (m : Machine) (d : Deed) (memory : Memory) :
    (m.withMemory memory).after d = (m.after d).withMemory (d.storeIn memory) := by
  cases d <;> rfl

/-- The memory after a deed is what the deed stores in it. -/
theorem memory_after (m : Machine) (d : Deed) : (m.after d).memory = d.storeIn m.memory :=
  congrArg Machine.memory (after_withMemory m d m.memory)

/-- A step that stores has succeeded. -/
theorem Stores.fault_eq_none (h : m.Stores x v) : m.step.fault = none := by
  cases h with
  | push hok => exact hok
  | call hok => exact hok

/-- What a step stores is what its deed stores. -/
theorem stores_iff (hfinding : m.finding = .ok d) (hprint : m.CanPrint d) :
    m.Stores x v ↔ d.store? = some (x, v) := by
  obtain ⟨-, i, hi, hdoes⟩ := finding_eq_ok_iff.mp hfinding
  have hok := (step_of_canPrint hfinding hprint).fault
  -- there is only one instruction at the program counter, and only one deed that it can do
  constructor
  · intro h
    cases h with
    | @push r _ hpush hr =>
      obtain rfl := Instruction.opcode_injective (hi.symm.trans hpush)
      cases hdoes with
      | @pushed s hs =>
        -- the operand names one register only
        have hrs : s = r := Fin.ext ((Register.ofByte?_eq_some_iff.mp hs).symm.trans hr)
        rw [hrs]
        rfl
    | call _ hcall =>
      obtain rfl := Instruction.opcode_injective (hi.symm.trans hcall)
      cases hdoes with
      | called => rfl
  · intro h
    cases hdoes with
    | pushed hr =>
      cases h
      exact .push hok hi (Register.ofByte?_eq_some_iff.mp hr)
    | called =>
      cases h
      exact .call hok hi
    | _ => cases h

/-- A step that fails stores nothing. -/
theorem memory_step_of_fault (h : m.step.fault = some fault) :
    m.step.machine.memory = m.memory := by
  -- whether no deed is found or it cannot print, none is done
  obtain hfinding | ⟨-, d, hfinding, hprint⟩ := finding_of_fault h
  · rw [(step_of_error hfinding).machine]
  · rw [(step_of_not_canPrint hfinding hprint).machine]

/-- A step leaves in its cell what it stores there. -/
theorem read_step_of_stores (h : m.Stores x v) : m.step.machine.read x = v := by
  obtain ⟨d, hfinding, hprint⟩ := finding_of_ok h.fault_eq_none
  have hstore := (stores_iff hfinding hprint).mp h
  rw [(step_of_canPrint hfinding hprint).machine, Machine.read, memory_after, Deed.storeIn, hstore]
  exact Memory.read_write_self ..

/-- **A step leaves every cell alone in which it does not store.** -/
theorem read_step_of_not_stores (h : ∀ v, ¬m.Stores x v) : m.step.machine.read x = m.read x := by
  cases hfault : m.step.fault with
  | some fault =>
    rw [Machine.read, memory_step_of_fault hfault]
    rfl
  | none =>
    obtain ⟨d, hfinding, hprint⟩ := finding_of_ok hfault
    rw [(step_of_canPrint hfinding hprint).machine, Machine.read, memory_after, Deed.storeIn]
    cases hstore : d.store? with
    | none => rfl
    | some store =>
      -- the step stores, but not here
      obtain ⟨cell, value⟩ := store
      have hne : x ≠ cell := by
        rintro rfl
        exact h value ((stores_iff hfinding hprint).mpr hstore)
      exact Memory.read_write_of_ne _ _ hne

/-! ### Sequences of steps -/

/-- Among the first `n` steps, the last one that stores in the cell `x` stores `v` there. -/
def StoredLast (m : Machine) (n : Nat) (x : Address) (v : Byte) : Prop :=
  ∃ k < n, (m.stepped k).Stores x v ∧ ∀ j, k < j → j < n → ∀ w, ¬(m.stepped j).Stores x w

/-- None of the first `n` steps stores in the cell `x`. -/
def NeverStored (m : Machine) (n : Nat) (x : Address) : Prop :=
  ∀ k < n, ∀ v, ¬(m.stepped k).Stores x v

/-- A cell stays as it is for as long as nothing is stored in it. -/
theorem read_stepped_eq (hle : k ≤ n)
    (h : ∀ j, k ≤ j → j < n → ∀ v, ¬(m.stepped j).Stores x v) :
    (m.stepped n).read x = (m.stepped k).read x := by
  -- by induction on the steps behind the first `k`
  induction hle with
  | refl => rfl
  | @step n hle ih =>
    have hlast : ∀ v, ¬(m.stepped n).Stores x v := h n hle (Nat.lt_succ_self n)
    rw [stepped_succ, read_step_of_not_stores hlast]
    apply ih
    intro j hj hjn
    exact h j hj (Nat.lt_succ_of_lt hjn)

/-- A cell in which nothing is stored keeps its content. -/
theorem NeverStored.read (h : m.NeverStored n x) : (m.stepped n).read x = m.read x :=
  read_stepped_eq (Nat.zero_le n) fun j _ hjn => h j hjn

/-- A cell holds what was stored in it last. -/
theorem StoredLast.read (h : m.StoredLast n x v) : (m.stepped n).read x = v := by
  obtain ⟨k, hk, hstores, hlast⟩ := h
  -- what is stored stays there in all the steps behind
  calc (m.stepped n).read x
      = (m.stepped (k + 1)).read x := read_stepped_eq hk hlast
    _ = (m.stepped k).step.machine.read x := by rw [stepped_succ]
    _ = v := read_step_of_stores hstores

/-- Something was stored in a cell last, or nothing at all. -/
theorem storedLast_or_neverStored (m : Machine) (n : Nat) (x : Address) :
    (∃ v, m.StoredLast n x v) ∨ m.NeverStored n x := by
  -- by induction on the steps, of which the last one either stores in the cell or does not count
  induction n with
  | zero => exact .inr fun k hk => absurd hk (Nat.not_lt_zero k)
  | succ n ih =>
    by_cases hstores : ∃ v, (m.stepped n).Stores x v
    · left
      obtain ⟨v, hv⟩ := hstores
      refine ⟨v, n, Nat.lt_succ_self n, hv, ?_⟩
      intro j hnj hjn
      omega
    · rw [not_exists] at hstores
      obtain ⟨v, k, hk, hv, hlast⟩ | hnever := ih
      · left
        refine ⟨v, k, Nat.lt_succ_of_lt hk, hv, ?_⟩
        intro j hkj hjn
        obtain hjn | rfl := Nat.lt_succ_iff_lt_or_eq.mp hjn
        · exact hlast j hkj hjn
        · exact hstores
      · right
        intro j hjn
        obtain hjn | rfl := Nat.lt_succ_iff_lt_or_eq.mp hjn
        · exact hnever j hjn
        · exact hstores

/-- What the machine `m` fetches from the addresses in `R`, and whatever else it reads there, is
what has been there in the machine `start`. -/
structure SeesOf (start : Machine) (R : Set Address) (m : Machine) : Prop where
  opcode : m.pc ∈ R → m.snapshot.opcode = start.read m.pc
  first : m.pc + 1 ∈ R → m.snapshot.first = start.read (m.pc + 1)
  second : m.pc + 2 ∈ R → m.snapshot.second = start.read (m.pc + 2)
  read : ∀ x ∈ R, m.read x = start.read x

/-- **Only pushes and calls write to memory, and the last one wins.** A part of memory to which none
of them goes is for every step as it has been at the beginning. -/
theorem last_store_wins (m : Machine) :
    (∀ n x, m.StoredLast n x ((m.stepped n).read x) ∨
      m.NeverStored n x ∧ (m.stepped n).read x = m.read x) ∧
    ∀ (R : Set Address) (n : Nat), (∀ x ∈ R, m.NeverStored n x) →
      ∀ k ≤ n, m.SeesOf R (m.stepped k) := by
  refine ⟨?_, ?_⟩
  · intro n x
    obtain ⟨v, hlast⟩ | hnever := storedLast_or_neverStored m n x
    · left
      rw [hlast.read]
      exact hlast
    · right
      exact ⟨hnever, hnever.read⟩
  · intro R n hR k hk
    -- what is not stored in `n` steps is not stored in the first `k` of them
    have hread : ∀ x ∈ R, (m.stepped k).read x = m.read x := by
      intro x hx
      have hnever : m.NeverStored k x := fun j hj => hR x hx j (Nat.lt_of_lt_of_le hj hk)
      exact hnever.read
    exact ⟨hread _, hread _, hread _, hread⟩

/-- A value is pushed and popped, and then a return address goes to the same cell. -/
theorem last_store_wins_call :
    let m : Machine :=
      { fresh .unlimited with memory := .ofBytes [0x82, 0, 5, 0x45, 0, 0x46, 1, 0x50, 0] }
    m.StoredLast 2 0xFF 5 ∧ m.StoredLast 4 0xFF 9 ∧
      ∀ k ≤ 4, m.SeesOf {x | m.NeverStored 4 x} (m.stepped k) := by
  intro m
  have hwins := last_store_wins m
  have hstored (n : Nat) (v : Byte) (hv : (m.stepped n).read 0xFF = v)
      (hne : v ≠ m.read 0xFF) : m.StoredLast n 0xFF v := by
    subst hv
    exact (hwins.1 n 0xFF).resolve_right fun h => hne h.2
  exact ⟨hstored 2 5 (by decide +kernel) (by decide +kernel),
    hstored 4 9 (by decide +kernel) (by decide +kernel), hwins.2 _ 4 fun _ hx => hx⟩

end Machine

end ByteMachine
