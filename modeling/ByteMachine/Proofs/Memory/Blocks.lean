import ByteMachine.Memory

/-!
# Blocks of memory

`Memory.HoldsAt` says that a block of bytes stands in memory from an address on, around the last
cell if need be. A block that is not longer than the memory is found where it was written
(`holdsAt_writeAll`), and stays there as long as nothing is written to its own cells
(`HoldsAt.write`).

A block that starts at the first cell makes up an image: `read_writeAll_zero` says what is then in
every cell, also in those that the block does not reach.
-/

namespace ByteMachine.Memory

/-- The bytes stand in memory from the address upwards. -/
def HoldsAt (m : Memory) : Address → List Byte → Prop
  | _, [] => True
  | p, b :: bs => m.read p = b ∧ m.HoldsAt (p + 1) bs

variable {m : Memory} {p x : Address} {b v : Byte} {bs cs : List Byte}

/-- The first cell of a block is the one at its address. -/
theorem add_ofNat_zero (p : Address) : p + UInt8.ofNat 0 = p :=
  UInt8.add_zero p

/-- The cells of a block behind the first one are counted from the next address, also around the end
of the memory. -/
theorem add_ofNat_succ (p : Address) (k : Nat) :
    p + 1 + UInt8.ofNat k = p + UInt8.ofNat (k + 1) := by
  rw [UInt8.ofNat_add, UInt8.add_assoc, UInt8.add_comm 1]
  rfl

/-- A cell outside of a block is outside of the block without its first byte. -/
theorem forall_ne_succ (h : ∀ k < (b :: bs).length, x ≠ p + UInt8.ofNat k) :
    ∀ k < bs.length, x ≠ p + 1 + UInt8.ofNat k := by
  intro k hk
  rw [add_ofNat_succ]
  exact h (k + 1) (Nat.succ_lt_succ hk)

/-- A cell outside of a block is not its first one. -/
theorem ne_of_forall_ne (h : ∀ k < (b :: bs).length, x ≠ p + UInt8.ofNat k) : x ≠ p := by
  have hzero := h 0 (Nat.succ_pos _)
  rwa [add_ofNat_zero] at hzero

/-- Two blocks that stand one behind the other are one block. -/
theorem holdsAt_append :
    m.HoldsAt p (bs ++ cs) ↔ m.HoldsAt p bs ∧ m.HoldsAt (p + UInt8.ofNat bs.length) cs := by
  induction bs generalizing p with
  | nil =>
    rw [List.nil_append, List.length_nil, add_ofNat_zero]
    exact (and_iff_right trivial).symm
  | cons b bs ih =>
    -- both sides ask for the first byte and then for the rest, one address further
    rw [List.cons_append, HoldsAt, HoldsAt, ih, and_assoc, add_ofNat_succ, List.length_cons]

/-- **A block stays where it is if another cell is written.** -/
theorem HoldsAt.write (h : m.HoldsAt p bs) (hx : ∀ k < bs.length, x ≠ p + UInt8.ofNat k) :
    (m.write x v).HoldsAt p bs := by
  induction bs generalizing p with
  | nil => trivial
  | cons b bs ih =>
    obtain ⟨hb, hbs⟩ := h
    -- the cell that is written is neither the first one of the block nor one of the others
    refine ⟨?_, ih hbs (forall_ne_succ hx)⟩
    rw [read_write_of_ne _ _ (ne_of_forall_ne hx).symm]
    exact hb

/-- A cell outside of a block keeps its content when the block is written. -/
theorem read_writeAll_of_forall_ne (hx : ∀ k < bs.length, x ≠ p + UInt8.ofNat k) :
    (m.writeAll p bs).read x = m.read x := by
  induction bs generalizing m p with
  | nil => rfl
  | cons b bs ih =>
    -- the rest of the block does not reach the cell, and neither does the first byte
    rw [writeAll_cons, ih (forall_ne_succ hx), read_write_of_ne _ _ (ne_of_forall_ne hx)]

/-- **A block is found where it was written, unless it overwrites its own beginning.** -/
theorem holdsAt_writeAll (hlength : bs.length ≤ 256) : (m.writeAll p bs).HoldsAt p bs := by
  induction bs generalizing m p with
  | nil => trivial
  | cons b bs ih =>
    rw [List.length_cons] at hlength
    refine ⟨?_, ih (by omega)⟩
    -- the rest of the block would have to go once around the memory to come back to its beginning
    have hne : ∀ k < bs.length, p ≠ p + 1 + UInt8.ofNat k := by
      intro k hk hp
      have hzero : UInt8.ofNat (k + 1) = 0 := by
        rw [add_ofNat_succ] at hp
        grind
      have hmod : (k + 1) % 256 = 0 := congrArg UInt8.toNat hzero
      omega
    rw [writeAll_cons, read_writeAll_of_forall_ne hne, read_write_self]

/-- What a block holds can be read cell by cell. -/
theorem HoldsAt.read (h : m.HoldsAt p bs) {k : Nat} (hk : k < bs.length) :
    m.read (p + UInt8.ofNat k) = bs[k] := by
  induction bs generalizing p k with
  | nil => exact absurd hk (Nat.not_lt_zero k)
  | cons b bs ih =>
    cases k with
    | zero =>
      rw [add_ofNat_zero]
      exact h.1
    | succ k =>
      rw [← add_ofNat_succ]
      exact ih h.2 (Nat.lt_of_succ_lt_succ hk)

/-! ### Images -/

/-- A block that starts at the first cell and is not longer than the memory covers the cells in
front, and keeps the others. -/
theorem read_writeAll_zero (m : Memory) (hlength : bs.length ≤ 256) (x : Address) :
    (m.writeAll 0 bs).read x = bs[x.toNat]?.getD (m.read x) := by
  by_cases hx : x.toNat < bs.length
  · -- inside of the block: the cell `x` holds its byte number `x`
    have hread : (m.writeAll 0 bs).read (0 + UInt8.ofNat x.toNat) = bs[x.toNat] :=
      (holdsAt_writeAll hlength).read hx
    rw [UInt8.ofNat_toNat, UInt8.zero_add] at hread
    rw [hread, List.getElem?_eq_getElem hx, Option.getD_some]
  · rw [List.getElem?_eq_none (Nat.le_of_not_lt hx), Option.getD_none]
    refine read_writeAll_of_forall_ne fun k hk hxk => hx ?_
    -- the address of a cell of the block is its index
    have hlt : k < 256 := Nat.lt_of_lt_of_le hk hlength
    rw [hxk, UInt8.zero_add, UInt8.toNat_ofNat_of_lt' hlt]
    exact hk

/-- The empty memory is zero everywhere. -/
@[simp] theorem read_zero (x : Address) : zero.read x = 0 :=
  Vector.getElem_replicate _

/-- The image of a program: its bytes from the first cell on, and zeros above. -/
theorem read_ofBytes (hlength : bs.length ≤ 256) (x : Address) :
    (ofBytes bs).read x = bs[x.toNat]?.getD 0 := by
  rw [ofBytes, read_writeAll_zero zero hlength, read_zero]

/-- A memory has 256 cells. -/
@[simp] theorem length_toList (m : Memory) : m.toList.length = 256 :=
  Vector.length_toList

/-- A memory is the image of all its cells. -/
theorem ofBytes_toList (m : Memory) : ofBytes m.toList = m := by
  apply ext_read
  intro x
  -- no cell lies above the image, as it has one byte for each
  have hx : x.toNat < m.toList.length := by
    rw [length_toList]
    exact x.toNat_lt
  rw [read_ofBytes (Nat.le_of_eq (length_toList m)), List.getElem?_eq_getElem hx, Option.getD_some]
  exact Vector.getElem_toList hx

end ByteMachine.Memory
