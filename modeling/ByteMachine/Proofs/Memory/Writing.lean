import ByteMachine.Code
import ByteMachine.Proofs.Memory.Blocks
import Mathlib.Data.List.Forall2
import Mathlib.Data.List.Induction
import Mathlib.Data.UInt
import Mathlib.Order.Bounds.Basic

/-!
# Blocks of any length

A block may be longer than the memory, and then several of its bytes fall on one cell. The cell
keeps the last of them. Which bytes these are is a matter of their indices alone: those that fall on
a cell are `Memory.indicesAt`, and the greatest of them is the one that counts (`Memory.holdsLast`).
The induction takes bytes off the end of the block, since the last byte is the one that is never
overwritten.

What else there is to say about blocks follows from this without another induction. A cell on which
no byte falls keeps its content, and any other cell has a content that does not depend on the old
one (`Memory.read_writeAll_congr`). Hence blocks on different cells can be written in either order,
and a block that is as long as the memory leaves nothing of it.
-/

namespace ByteMachine

/-- The value that an item of code stands for, which need not fit into a byte. -/
def CodeItem.value : CodeItem → Int
  | instruction i => i.opcode.toNat
  | number n => n

/-- The byte consists of the last eight bits of the value. -/
def CodeItem.TruncatesTo (c : CodeItem) (b : Byte) : Prop :=
  (b.toNat : Int) = c.value % 256

/-- The byte of an item of code consists of the last eight bits of its value. -/
theorem CodeItem.truncatesTo_byte (c : CodeItem) : c.TruncatesTo c.byte := by
  cases c with
  | instruction i =>
    -- an opcode is below 256, so nothing of it is cut off
    have hlt : (i.opcode.toNat : Int) < 256 := Int.ofNat_lt.mpr i.opcode.toNat_lt
    exact (Int.emod_eq_of_lt (Int.natCast_nonneg _) hlt).symm
  | number n =>
    -- the remainder is not negative even if the number is, and it fits into a byte
    have hnonneg : 0 ≤ n % 256 := Int.emod_nonneg n (by decide)
    have hlt : (n % 256).toNat < 2 ^ 8 := by omega
    show ((UInt8.ofNat (n % 256).toNat).toNat : Int) = n % 256
    rw [UInt8.toNat_ofNat_of_lt' hlt, Int.toNat_of_nonneg hnonneg]

namespace Memory

variable {m m' : Memory} {p q x : Address} {b : Byte} {bs cs : List Byte} {n i : Nat}

/-! ### Writing in parts -/

/-- What is written in two parts is written one behind the other. -/
theorem writeAll_append (m : Memory) (p : Address) (bs cs : List Byte) :
    m.writeAll p (bs ++ cs) = (m.writeAll p bs).writeAll (p + UInt8.ofNat bs.length) cs := by
  induction bs generalizing m p with
  | nil => rw [List.nil_append, List.length_nil, add_ofNat_zero, writeAll_nil]
  | cons b bs ih =>
    rw [List.cons_append, writeAll_cons, writeAll_cons, ih, add_ofNat_succ, List.length_cons]

/-- The last byte of a block is written at last, into the cell behind all others. -/
theorem writeAll_concat (m : Memory) (p : Address) (bs : List Byte) (b : Byte) :
    m.writeAll p (bs ++ [b]) = (m.writeAll p bs).write (p + UInt8.ofNat bs.length) b :=
  writeAll_append m p bs [b]

/-! ### The bytes that fall on a cell -/

/-- The indices of the bytes that fall on the cell `x`, in a block of `n` bytes from `p` on. -/
def indicesAt (p : Address) (n : Nat) (x : Address) : Set Nat :=
  {i | i < n ∧ (p.toNat + i) % 256 = x.toNat}

/-- The cells on which the bytes of a block of `n` bytes from `p` on fall. -/
def addresses (p : Address) (n : Nat) : Set Address :=
  {x | (indicesAt p n x).Nonempty}

/-- The cell at a distance from an address is found by counting around the end of the memory. -/
theorem eq_add_ofNat_iff : x = p + UInt8.ofNat i ↔ (p.toNat + i) % 256 = x.toNat := by
  rw [← UInt8.toNat_inj, UInt8.toNat_add, UInt8.toNat_ofNat', Nat.add_mod_mod]
  exact eq_comm

/-- A byte that is added at the end and falls on a cell has the greatest index there. -/
theorem isGreatest_indicesAt_succ (h : x = p + UInt8.ofNat n) :
    IsGreatest (indicesAt p (n + 1) x) n :=
  ⟨⟨Nat.lt_succ_self n, eq_add_ofNat_iff.mp h⟩, fun _ hi => Nat.le_of_lt_succ hi.1⟩

/-- A byte that is added at the end and falls on another cell leaves the indices as they are. -/
theorem indicesAt_succ_of_ne (h : x ≠ p + UInt8.ofNat n) :
    indicesAt p (n + 1) x = indicesAt p n x := by
  ext i
  refine ⟨fun ⟨hlt, hi⟩ => ⟨?_, hi⟩, fun ⟨hlt, hi⟩ => ⟨Nat.lt_succ_of_lt hlt, hi⟩⟩
  -- the only new index is `n` itself, and that byte falls on another cell
  refine Nat.lt_of_le_of_ne (Nat.le_of_lt_succ hlt) ?_
  rintro rfl
  exact h (eq_add_ofNat_iff.mpr hi)

/-- A block that is as long as the memory reaches every cell. -/
theorem nonempty_indicesAt (hn : 256 ≤ n) (p x : Address) : (indicesAt p n x).Nonempty := by
  have hp := p.toNat_lt
  have hx := x.toNat_lt
  -- from `p` to the end of the memory, and from there to `x`
  refine ⟨(256 - p.toNat + x.toNat) % 256, ?_, ?_⟩
  · omega
  · omega

/-! ### What a block leaves -/

/-- After a block was written, the cell `x` holds the last byte that falls on it, and what it held
before if there is none. -/
inductive HoldsLast (before after : Memory) (p : Address) (bs : List Byte) (x : Address) :
    Prop where
  | last {i : Nat} (hi : IsGreatest (indicesAt p bs.length x) i)
      (hread : bs[i]? = some (after.read x)) : HoldsLast before after p bs x
  | old (hnone : indicesAt p bs.length x = ∅) (hread : after.read x = before.read x) :
      HoldsLast before after p bs x

/-- **The last byte that falls on a cell stays there.** -/
theorem holdsLast (m : Memory) (p : Address) (bs : List Byte) (x : Address) :
    HoldsLast m (m.writeAll p bs) p bs x := by
  induction bs using List.reverseRecOn with
  | nil => exact .old (Set.eq_empty_of_forall_notMem fun i hi => Nat.not_lt_zero i hi.1) rfl
  | append_singleton bs b ih =>
    have hlength : (bs ++ [b]).length = bs.length + 1 := List.length_append
    rw [writeAll_concat]
    by_cases hx : x = p + UInt8.ofNat bs.length
    · -- the last byte of the block falls on the cell
      refine .last (i := bs.length) ?_ ?_
      · rw [hlength]
        exact isGreatest_indicesAt_succ hx
      · rw [hx, read_write_self, List.getElem?_concat_length]
    · -- the cell is as the bytes in front have left it
      have hindices : indicesAt p (bs ++ [b]).length x = indicesAt p bs.length x := by
        rw [hlength, indicesAt_succ_of_ne hx]
      have hread := read_write_of_ne (m.writeAll p bs) b hx
      cases ih with
      | last hi hlast =>
        refine .last (hindices ▸ hi) ?_
        rw [hread, List.getElem?_append_left hi.1.1]
        exact hlast
      | old hnone hold => exact .old (hindices.trans hnone) (hread.trans hold)

/-- A cell that a block does not reach keeps its content. -/
theorem read_writeAll_of_notMem (hx : x ∉ addresses p bs.length) :
    (m.writeAll p bs).read x = m.read x :=
  read_writeAll_of_forall_ne fun i hi h => hx ⟨i, hi, eq_add_ofNat_iff.mp h⟩

/-- **What a block leaves in a cell depends on the old content only if no byte falls on it.** -/
theorem read_writeAll_congr (h : x ∉ addresses p bs.length → m.read x = m'.read x) :
    (m.writeAll p bs).read x = (m'.writeAll p bs).read x := by
  by_cases hx : x ∈ addresses p bs.length
  · cases m.holdsLast p bs x with
    | old hnone _ => exact absurd hnone hx.ne_empty
    | last hi hread =>
      cases m'.holdsLast p bs x with
      | old hnone _ => exact absurd hnone hx.ne_empty
      | last hi' hread' =>
        -- the greatest index is the same in both memories
        obtain rfl := hi.unique hi'
        exact Option.some.inj (hread.symm.trans hread')
  · rw [read_writeAll_of_notMem hx, read_writeAll_of_notMem hx, h hx]

/-- A cell that the first block does not reach is as if this had not been written. -/
theorem read_writeAll_of_notMem_first (hx : x ∉ addresses p bs.length) :
    ((m.writeAll p bs).writeAll q cs).read x = ((m.writeAll q cs).writeAll p bs).read x := by
  rw [read_writeAll_of_notMem (m := m.writeAll q cs) hx]
  exact read_writeAll_congr fun _ => read_writeAll_of_notMem hx

/-- **Blocks that do not meet can be written in either order.** -/
theorem writeAll_comm (h : ∀ x ∈ addresses p bs.length, x ∉ addresses q cs.length) :
    (m.writeAll p bs).writeAll q cs = (m.writeAll q cs).writeAll p bs := by
  apply ext_read
  intro x
  by_cases hx : x ∈ addresses p bs.length
  · exact (read_writeAll_of_notMem_first (h x hx)).symm
  · exact read_writeAll_of_notMem_first hx

/-- A block that is as long as the memory forgets what was there. -/
theorem writeAll_eq_of_le (hlength : 256 ≤ bs.length) (m m' : Memory) :
    m.writeAll p bs = m'.writeAll p bs := by
  apply ext_read
  intro x
  exact read_writeAll_congr fun hx => absurd (nonempty_indicesAt hlength p x) hx

/-- What there is to say about writing the block `bs` from `p` on. -/
structure BlockLaws (p : Address) (bs : List Byte) : Prop where
  read : ∀ (m : Memory) (x : Address), HoldsLast m (m.writeAll p bs) p bs x
  append : ∀ (m : Memory) (cs : List Byte),
    m.writeAll p (bs ++ cs) = (m.writeAll p bs).writeAll (p + UInt8.ofNat bs.length) cs
  commute : ∀ (m : Memory) (q : Address) (cs : List Byte),
    (∀ x ∈ addresses p bs.length, x ∉ addresses q cs.length) →
      (m.writeAll p bs).writeAll q cs = (m.writeAll q cs).writeAll p bs
  forgets : 256 ≤ bs.length → ∀ m m' : Memory, m.writeAll p bs = m'.writeAll p bs

/-- **Of the bytes that fall on a cell the last one stays, however long the block is.** Code is
written as the block of its truncated values. -/
theorem last_byte_stays (p : Address) :
    (∀ bs, BlockLaws p bs) ∧
      ∀ code : List CodeItem, ∃ bs, List.Forall₂ CodeItem.TruncatesTo code bs ∧
        ∀ m : Memory, m.writeCode p code = m.writeAll p bs := by
  refine ⟨fun bs => ?_, fun code => ⟨code.map CodeItem.byte, ?_, fun m => rfl⟩⟩
  · exact ⟨fun m x => m.holdsLast p bs x, fun m cs => m.writeAll_append p bs cs,
      fun m q cs h => writeAll_comm h, writeAll_eq_of_le⟩
  · rw [List.forall₂_map_right_iff]
    exact List.forall₂_same.mpr fun c _ => c.truncatesTo_byte

/-- A block of 300 bytes around the last cell, two short ones that touch but do not meet, and code
with numbers that do not fit into a byte. -/
theorem last_byte_stays_around :
    let bs := (List.range 300).map UInt8.ofNat
    256 ≤ bs.length ∧ (∀ m m' : Memory, m.writeAll 0xF0 bs = m'.writeAll 0xF0 bs) ∧
      (∀ x ∈ addresses 0xFE 3, x ∉ addresses 0x01 2) ∧
      (∀ m : Memory,
        (m.writeAll 0xFE [1, 2, 3]).writeAll 0x01 [4, 5] =
          (m.writeAll 0x01 [4, 5]).writeAll 0xFE [1, 2, 3]) ∧
      ∃ cs, List.Forall₂ CodeItem.TruncatesTo [.instruction .ldi, .number 256, .number (-1)] cs ∧
        ∀ m : Memory,
          m.writeCode 0 [.instruction .ldi, .number 256, .number (-1)] = m.writeAll 0 cs := by
  intro bs
  have hlength : 256 ≤ bs.length := by
    rw [List.length_map, List.length_range]
    decide
  have hseparate : ∀ x ∈ addresses 0xFE 3, x ∉ addresses 0x01 2 := by
    rintro x ⟨i, hi, hx⟩ ⟨j, hj, hx'⟩
    have hsame : (0xFE + i) % 256 = (0x01 + j) % 256 := hx.trans hx'.symm
    omega
  exact ⟨hlength, ((last_byte_stays 0xF0).1 bs).forgets hlength, hseparate,
    fun m => ((last_byte_stays 0xFE).1 [1, 2, 3]).commute m 0x01 [4, 5] hseparate,
    (last_byte_stays 0).2 _⟩

end Memory

end ByteMachine
