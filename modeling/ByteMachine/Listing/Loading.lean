import ByteMachine.Listing
import ByteMachine.Memory
import ByteMachine.Storage

/-!
# Loading a program from storage

The file at a path is read as text, and the text as a listing. Either of the two can fail. That a
file was read is entered into the journal before what reading the listing enters there; nothing is
entered if it was not.
-/

namespace ByteMachine

/-- Why a program cannot be loaded. -/
inductive LoadError where
  /-- The file cannot be read. -/
  | unreadable (error : ReadError)
  /-- The text of the file has defects. -/
  | malformed (defects : List Defect)
deriving DecidableEq, Repr

namespace LoadError

/-- The text of a load error. -/
def message : LoadError → String
  | unreadable error => "failed to read program: " ++ error.message
  | malformed defects => "failed to parse program (" ++ toString defects.length ++ " errors)"

/-- The text of the failure behind a load error, if there is one. -/
def source? : LoadError → Option String
  | unreadable error => some error.message
  | malformed _ => none

end LoadError

/-- The result of loading a program. -/
structure Loading where
  program : Except LoadError (List Byte)
  records : List Record

namespace Loading

/-- Loads the program from what was read at `path`. -/
def ofText (path : String) : (text : Except ReadError String) → Loading
  -- nothing was read, so there is nothing to enter
  | .error error => ⟨.error (.unreadable error), []⟩
  | .ok text =>
    let listing := Listing.ofText text
    { program := listing.program.mapError .malformed
      records := ⟨.debug, .listing, "Loaded `" ++ path ++ "`"⟩ :: listing.transcript }

/-- The memory that holds the program. -/
def memory (l : Loading) : Except LoadError Memory :=
  l.program.map Memory.ofBytes

end Loading

/-- Loads the program at a path. -/
def Storage.loadProgram (s : Storage) (path : String) : Loading :=
  .ofText path (s.readText path)

end ByteMachine
