import ByteMachine.Byte

/-!
# Memory

256 cells of one byte each. Since an address is a byte as well, reading and writing are total, and
a block that is written past the last cell goes on at the first one.

Everything later said about memory is said through `Memory.read`: `Memory.ext_read` makes two
memories equal when all their cells are, and `Memory.read_write` says what a write does to every
cell.
-/

namespace ByteMachine

/-- The content of all 256 cells. -/
structure Memory where
  cells : Vector Byte 256
deriving DecidableEq

namespace Memory

/-- The number of cells. -/
def size : Nat := 256

/-- The refusal of a program of `size` bytes, which are more than there are cells. -/
def tooLargeMessage (size : Nat) : String :=
  "program of `" ++ toString size ++ "` bytes does not fit into `" ++ toString Memory.size ++
    "` bytes of memory"

/-- The memory whose cells are all zero. -/
def zero : Memory := ⟨Vector.replicate 256 0⟩

/-- The content of the cell at `address`. -/
def read (m : Memory) (address : Address) : Byte :=
  getElem m.cells address.toNat address.toNat_lt

/-- The memory after storing `value` at `address`. -/
def write (m : Memory) (address : Address) (value : Byte) : Memory :=
  ⟨m.cells.set address.toNat value address.toNat_lt⟩

/-- Stores a block of bytes from `address` upwards. After the last cell comes the first one, so of
several bytes that fall on one cell the last one stays. -/
def writeAll (m : Memory) (address : Address) : List Byte → Memory
  | [] => m
  | value :: rest => (m.write address value).writeAll (address + 1) rest

/-- The memory that holds `bytes` from address 0 on and zeros elsewhere. -/
def ofBytes (bytes : List Byte) : Memory :=
  zero.writeAll 0 bytes

/-- All cells in the order of their addresses. -/
def toList (m : Memory) : List Byte :=
  m.cells.toList

/-! ### Reading after writing -/

/-- Memories with the same content in every cell are equal. -/
theorem ext_read {m n : Memory} (h : ∀ a, m.read a = n.read a) : m = n := by
  obtain ⟨xs⟩ := m
  obtain ⟨ys⟩ := n
  congr 1
  apply Vector.ext
  intro i hi
  -- every index is the number of an address
  have hread := h (UInt8.ofNat i)
  have hi' : i % 256 = i := Nat.mod_eq_of_lt hi
  simpa only [read, UInt8.toNat_ofNat', Nat.reducePow, hi'] using hread

/-- What a write does to every cell. -/
theorem read_write (m : Memory) (a b : Address) (v : Byte) :
    (m.write a v).read b = if b = a then v else m.read b := by
  simp only [read, write, Vector.getElem_set, UInt8.toNat_inj, eq_comm]

/-- A cell holds what was written to it. -/
@[simp] theorem read_write_self (m : Memory) (a : Address) (v : Byte) :
    (m.write a v).read a = v := by
  simp [read_write]

/-- A write leaves the other cells alone. -/
theorem read_write_of_ne (m : Memory) {a b : Address} (v : Byte) (h : b ≠ a) :
    (m.write a v).read b = m.read b := by
  simp [read_write, h]

/-- To write no bytes changes nothing. -/
@[simp] theorem writeAll_nil (m : Memory) (a : Address) : m.writeAll a [] = m := rfl

/-- The first byte is written before the others. -/
@[simp] theorem writeAll_cons (m : Memory) (a : Address) (v : Byte) (vs : List Byte) :
    m.writeAll a (v :: vs) = (m.write a v).writeAll (a + 1) vs := rfl

end Memory

end ByteMachine
