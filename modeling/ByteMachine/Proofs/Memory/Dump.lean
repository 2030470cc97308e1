import ByteMachine.Memory.Dump
import ByteMachine.Proofs.Memory.Writing
import ByteMachine.Proofs.Text.Words

/-!
# Reading a dump

A line of a dump shows the address of a row and its bytes, and a reader gets the row back
(`Memory.Row.ofText?_record`). When the rows that are shown are stored into an empty memory, each at
its address, every cell is as it was: either its row was stored, or its row was left out and then
the cell is zero (`Memory.withRows_shownAddresses`). So a dump can be undone
(`Memory.ofDump?_dump`), and different memories have different dumps.
-/

namespace ByteMachine.Memory

variable {m n : Memory} {a x : Address} {as : List Address}

/-! ### Rows and the lines that show them -/

/-- The row that a line of a dump shows: two digits and a colon, then sixteen bytes of two digits
each, with blanks in front of them. -/
def Row.ofText? (text : String) : Option Row :=
  match Text.words text.toList with
  | [high, low, ':'] :: cells => do
    let address ← Byte.ofHex? [high, low]
    let bytes ← cells.mapM Byte.ofHex?
    if bytes.length = 16 then return ⟨address, bytes⟩ else none
  | _ => none

/-- The memory with the rows stored at their addresses. -/
def withRows (m : Memory) (rows : List Row) : Memory :=
  rows.foldl (fun m r => m.writeAll r.address r.bytes) m

/-- The memory that the lines of a dump show. Rows that are left out are zero. -/
def ofDump? (lines : List String) : Option Memory :=
  (lines.mapM Row.ofText?).map zero.withRows

/-- The first row is stored before the others. -/
theorem withRows_cons (m : Memory) (r : Row) (rows : List Row) :
    m.withRows (r :: rows) = (m.writeAll r.address r.bytes).withRows rows := rfl

/-- The line of a row starts with its address. -/
theorem words_record {r : Row} (h : r.bytes ≠ []) :
    Text.words r.record.text.toList =
      (r.address.hex.toList ++ [':']) :: r.bytes.map fun b => b.hex.toList := by
  -- the address and the colon are one word, and a blank separates them from the bytes
  have htext : r.record.text.toList = (r.address.hex.toList ++ [':']) ++ ' ' ::
      (" ".intercalate (r.bytes.map Byte.hex)).toList := by
    simp [Row.record]
  have hblank : ' ' ∉ r.address.hex.toList ++ [':'] := by
    rw [List.mem_append, List.mem_singleton]
    rintro (hhex | hcolon)
    · exact r.address.blank_not_mem_hex hhex
    · exact absurd hcolon (by decide)
  rw [htext, Text.words_append_blank, Text.words_of_not_mem hblank, Byte.words_hex h]
  rfl

/-- **The line of a row shows the row.** -/
theorem Row.ofText?_record {r : Row} (h : r.bytes.length = 16) :
    Row.ofText? r.record.text = some r := by
  have hne : r.bytes ≠ [] := by
    intro hnil
    rw [hnil] at h
    cases h
  rw [Row.ofText?, words_record hne]
  -- the row is matched against the two digits themselves, so `hex` has to be written out
  have haddress := r.address.ofHex?_hex
  rw [Byte.hex, String.toList_ofList] at haddress ⊢
  show (Byte.ofHex? _ >>= fun address => (r.bytes.map fun b => b.hex.toList).mapM Byte.ofHex? >>=
    fun bytes => if bytes.length = 16 then pure ⟨address, bytes⟩ else none) = some r
  rw [haddress, Byte.mapM_ofHex?_hex]
  exact if_pos h

/-- A row has sixteen bytes. -/
@[simp] theorem length_bytes_row (m : Memory) (a : Address) : (m.row a).bytes.length = 16 := rfl

/-- A row is zero if each of its cells is. -/
theorem isZero_row_iff : (m.row a).isZero ↔ ∀ k < 16, m.read (a + UInt8.ofNat k) = 0 := by
  simp [Row.isZero, row]

/-! ### The rows that are shown -/

/-- The addresses of all rows. -/
def rowAddresses : List Address :=
  (List.range 16).map fun i => UInt8.ofNat (16 * i)

/-- The addresses of the rows that are not zero. -/
def shownAddresses (m : Memory) : List Address :=
  rowAddresses.filter fun a => !(m.row a).isZero

/-- The rows start at the multiples of sixteen. -/
theorem mem_rowAddresses_iff : a ∈ rowAddresses ↔ a.toNat % 16 = 0 := by
  have ha := a.toNat_lt
  rw [rowAddresses, List.mem_map]
  constructor
  · rintro ⟨i, hi, rfl⟩
    rw [List.mem_range] at hi
    have hlt : 16 * i < 256 := by omega
    rw [UInt8.toNat_ofNat_of_lt' hlt]
    omega
  · -- the row with this address is the one whose number is the sixteenth part
    intro h
    refine ⟨a.toNat / 16, List.mem_range.mpr (by omega), ?_⟩
    rw [show 16 * (a.toNat / 16) = a.toNat by omega, UInt8.ofNat_toNat]

/-- A row is shown if it is aligned and one of its cells is not zero. -/
theorem mem_shownAddresses_iff :
    a ∈ m.shownAddresses ↔ a.toNat % 16 = 0 ∧ ∃ k < 16, m.read (a + UInt8.ofNat k) ≠ 0 := by
  rw [shownAddresses, List.mem_filter, mem_rowAddresses_iff, Bool.not_eq_true', ← Bool.not_eq_true,
    isZero_row_iff]
  simp

/-- A dump goes through the shown addresses, one line for each. -/
theorem dump_eq (m : Memory) : m.dump = (m.shownAddresses.map m.row).map Row.record := by
  have hrows : m.rows = rowAddresses.map m.row := by
    rw [rows, rowAddresses, List.map_map]
    rfl
  rw [dump, hrows, List.filter_map]
  rfl

/-! ### Storing the rows again -/

/-- Every cell lies in a row. -/
theorem exists_rowAddress (x : Address) : ∃ a ∈ rowAddresses, x ∈ addresses a 16 := by
  have hx := x.toNat_lt
  have hlt : 16 * (x.toNat / 16) < 256 := by omega
  have ha : (UInt8.ofNat (16 * (x.toNat / 16))).toNat = 16 * (x.toNat / 16) :=
    UInt8.toNat_ofNat_of_lt' hlt
  -- the address of the row comes from the upper digit of `x`, the place in it from the lower one
  refine ⟨UInt8.ofNat (16 * (x.toNat / 16)), mem_rowAddresses_iff.mpr ?_, x.toNat % 16, ?_, ?_⟩
  · rw [ha]
    omega
  · omega
  · rw [ha]
    omega

/-- A row that is stored gives its cells back. -/
theorem read_writeAll_row (hx : x ∈ addresses a 16) :
    (n.writeAll a (m.row a).bytes).read x = m.read x := by
  obtain ⟨k, hk, hkx⟩ := hx
  -- a cell of the row has an index in it, and the block is found where it was written
  obtain rfl := eq_add_ofNat_iff.mpr hkx
  rw [(holdsAt_writeAll (by simp)).read (by simpa using hk)]
  simp [row]

/-- A cell is restored once its row has been stored, and stays so. -/
theorem read_withRows (h : n.read x = m.read x ∨ ∃ a ∈ as, x ∈ addresses a 16) :
    (n.withRows (as.map m.row)).read x = m.read x := by
  -- by induction on the rows that are still to be stored
  induction as generalizing n with
  | nil => exact h.resolve_right fun ⟨_, ha, _⟩ => nomatch ha
  | cons a as ih =>
    rw [List.map_cons, withRows_cons]
    refine ih ?_
    -- a row restores its own cells and leaves the others as they are
    by_cases hx : x ∈ addresses a 16
    · exact .inl (read_writeAll_row hx)
    · obtain hread | ⟨b, hb, hxb⟩ := h
      · exact .inl ((read_writeAll_of_notMem hx).trans hread)
      · obtain rfl | hb := List.mem_cons.mp hb
        · exact absurd hxb hx
        · exact .inr ⟨b, hb, hxb⟩

/-- **The rows that are shown make up the memory.** -/
theorem withRows_shownAddresses (m : Memory) :
    zero.withRows (m.shownAddresses.map m.row) = m := by
  apply ext_read
  intro x
  apply read_withRows
  obtain ⟨a, ha, hx⟩ := exists_rowAddress x
  by_cases hzero : (m.row a).isZero
  · -- the row is left out, and the cell is zero as everything that is left out
    obtain ⟨k, hk, hkx⟩ := hx
    have hread := isZero_row_iff.mp hzero k hk
    rw [← eq_add_ofNat_iff.mpr hkx] at hread
    exact .inl ((read_zero x).trans hread.symm)
  · exact .inr ⟨a, List.mem_filter.mpr ⟨ha, by simpa using hzero⟩, hx⟩

/-- **A dump can be undone.** -/
theorem ofDump?_dump (m : Memory) : ofDump? (m.dump.map Record.text) = some m := by
  -- all lines of a dump can be read, one by one
  have hread : (Row.ofText? ∘ (Record.text ∘ Row.record) ∘ m.row) = fun a => pure (m.row a) := by
    funext a
    rw [Function.comp_apply, Function.comp_apply, Function.comp_apply,
      Row.ofText?_record (m.length_bytes_row a), Option.pure_def]
  rw [ofDump?, dump_eq, List.map_map, List.map_map, List.mapM_map, hread, List.mapM_pure]
  exact congrArg some m.withRows_shownAddresses

/-- Different memories have different dumps. -/
theorem dump_injective (h : m.dump = n.dump) : m = n := by
  have hread := m.ofDump?_dump
  rw [h, ofDump?_dump] at hread
  exact (Option.some.inj hread).symm

/-- Of the empty memory nothing is shown. -/
theorem dump_zero : zero.dump = [] := by
  -- a row that is shown has a cell that is not zero, and here there is none
  rw [dump_eq, List.map_eq_nil_iff, List.map_eq_nil_iff, List.eq_nil_iff_forall_not_mem]
  intro a ha
  obtain ⟨-, k, -, hk⟩ := mem_shownAddresses_iff.mp ha
  exact hk (read_zero _)

/-- The dump has one line for each of the addresses, in their order. -/
structure DumpShows (m : Memory) (shown : List Address) : Prop where
  increasing : shown.Pairwise (· < ·)
  /-- What is shown are the aligned rows with a cell that is not zero. -/
  mem_iff : ∀ a, a ∈ shown ↔ a.toNat % 16 = 0 ∧ ∃ k < 16, m.read (a + UInt8.ofNat k) ≠ 0
  dump : m.dump = shown.map fun a =>
    { level := .info
      origin := .memory
      text := a.hex ++ ": " ++
        " ".intercalate ((List.range 16).map fun k => (m.read (a + UInt8.ofNat k)).hex) }

/-- **The dump shows the rows that are not zero.** -/
theorem dumpShows (m : Memory) : m.DumpShows m.shownAddresses where
  -- the addresses of all rows are increasing, and those that are shown are some of them
  increasing := List.Pairwise.filter _ (by decide)
  mem_iff _ := mem_shownAddresses_iff
  dump := by
    rw [dump_eq, List.map_map]
    refine List.map_congr_left fun a _ => ?_
    show (m.row a).record = _
    rw [Row.record, row, List.map_map]
    rfl

/-- **A dump loses nothing.** It shows the rows that are not zero, and the memory can be read back
from it. So different memories have different dumps, and only the dump of the empty memory is
empty. -/
theorem dump_is_lossless (m : Memory) :
    (∃ shown, m.DumpShows shown) ∧ ofDump? (m.dump.map Record.text) = some m ∧
      (∀ n : Memory, m.dump = n.dump ↔ m = n) ∧ (m.dump = [] ↔ m = zero) := by
  have hinjective (n : Memory) : m.dump = n.dump ↔ m = n := ⟨dump_injective, congrArg Memory.dump⟩
  refine ⟨⟨m.shownAddresses, m.dumpShows⟩, m.ofDump?_dump, hinjective, ?_⟩
  rw [← dump_zero]
  exact hinjective zero

end ByteMachine.Memory
