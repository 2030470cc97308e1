import ByteMachine.Journal
import ByteMachine.Memory

/-!
# The dump of a memory

Memory is shown in sixteen rows of sixteen cells, and a row that holds only zeros is left out. The
address in front of each row makes up for the rows that are missing.
-/

namespace ByteMachine.Memory

/-- Sixteen neighbouring cells. -/
structure Row where
  /-- The address of the first cell. -/
  address : Address
  bytes : List Byte
deriving DecidableEq, Repr

/-- A row that holds only zeros. -/
def Row.isZero (r : Row) : Bool :=
  r.bytes.all (· == 0)

/-- The record that shows a row: its address, then its cells. -/
def Row.record (r : Row) : Record where
  level := .info
  origin := .memory
  text := r.address.hex ++ ": " ++ " ".intercalate (r.bytes.map Byte.hex)

/-- The row that starts at `address`. -/
def row (m : Memory) (address : Address) : Row where
  address := address
  bytes := (List.range 16).map fun i => m.read (address + UInt8.ofNat i)

/-- All rows in the order of their addresses. -/
def rows (m : Memory) : List Row :=
  (List.range 16).map fun i => m.row (UInt8.ofNat (16 * i))

/-- The records that show a memory. -/
def dump (m : Memory) : List Record :=
  -- what is not shown is zero, so nothing is lost
  (m.rows.filter fun r => !r.isZero).map Row.record

end ByteMachine.Memory
