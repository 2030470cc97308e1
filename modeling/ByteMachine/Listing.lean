import ByteMachine.Listing.Reader
import ByteMachine.Text.Lines

/-!
# Listings

A program is written down as a listing, one byte per line in binary digits. A text is broken into
lines, the lines are classified, and a reader goes through them once. What it is left with is the
program, or all defects of the listing, and the records that the reading writes into the journal.
-/

namespace ByteMachine

/-- A program in written form: its lines in order. -/
structure Listing where
  lines : List Listing.Line
deriving DecidableEq, Repr

namespace Listing

/-- The listing that a text is. -/
def ofText (text : String) : Listing :=
  ⟨(Text.lines text.toList).map .ofChars⟩

/-- The reader at the end of the listing. -/
def read (l : Listing) : Reader :=
  (l.lines.foldl Reader.readLine .start).finish

/-- The program that a listing denotes, or all reasons why it denotes none. -/
def program (l : Listing) : Except (List Defect) (List Byte) :=
  -- one defect is enough to refuse the whole listing
  if l.read.defects.isEmpty then .ok l.read.program.toList else .error l.read.defects.toList

/-- The records that reading the listing writes. -/
def transcript (l : Listing) : List Record :=
  l.read.records.toList

end Listing

/-- The program that a text denotes, or all its defects. -/
def parseProgram (text : String) : Except (List Defect) (List Byte) :=
  (Listing.ofText text).program

/-- The memory that holds the program of a text. -/
def Memory.ofText (text : String) : Except (List Defect) Memory :=
  (parseProgram text).map Memory.ofBytes

end ByteMachine
