import ByteMachine.Journal
import ByteMachine.Listing.Defect
import ByteMachine.Listing.Line

/-!
# Reading a listing

A listing is read line by line. On the way the reader counts the lines and the bytes, keeps those
bytes that fit into memory, and remembers the first line whose byte did not. A malformed line is
reported at once and reading goes on behind it, so a listing shows all its defects at once; that
there were too many bytes can only be reported at the end, when their number is known.

Whatever is reported is kept as a defect and entered into the journal.
-/

namespace ByteMachine.Listing

/-- A reader, with all that it has found so far. -/
structure Reader where
  /-- The number of lines read. -/
  line : Nat
  /-- The bytes read, as far as they fit into memory. -/
  program : Array Byte
  /-- The number of bytes read, whether they fit or not. -/
  size : Nat
  /-- The line of the first byte that did not fit. -/
  overflow? : Option Nat
  /-- What was reported. -/
  defects : Array Defect
  /-- What was entered into the journal. -/
  records : Array Record

namespace Reader

/-- A reader in front of the first line. -/
def start : Reader := ⟨0, #[], 0, none, #[], #[]⟩

/-- Reports a defect. -/
def report (r : Reader) (d : Defect) : Reader :=
  { r with
    defects := r.defects.push d
    records := r.records.push ⟨.error, .listing, d.message⟩ }

/-- Enters a byte of the current line into the journal. -/
def note (r : Reader) (value : Byte) : Reader :=
  let text := "[" ++ toString r.line ++ "] Found byte 0b" ++ value.binary 8
  { r with records := r.records.push ⟨.trace, .listing, text⟩ }

/-- Adds a byte to the program. One that does not fit is only counted. -/
def store (r : Reader) (value : Byte) : Reader :=
  -- the number of all bytes is wanted in the end, so this one counts in any case
  let r := { r with size := r.size + 1 }
  if r.program.size < Memory.size then
    { r with program := r.program.push value }
  else if r.overflow?.isNone then
    -- the first byte that does not fit
    { r with overflow? := some r.line }
  else
    r

/-- Reads one more line. -/
def readLine (r : Reader) (line : Line) : Reader :=
  -- lines are counted from one, so this one is counted before it is looked at
  let r := { r with line := r.line + 1 }
  match line with
  | .blank => r
  | .byte value => (r.note value).store value
  | .malformed text => r.report ⟨r.line, .malformed text⟩

/-- Ends the reading behind the last line. -/
def finish (r : Reader) : Reader :=
  match r.overflow? with
  | none => r
  | some line => r.report ⟨line, .tooLarge r.size⟩

end Reader

end ByteMachine.Listing
