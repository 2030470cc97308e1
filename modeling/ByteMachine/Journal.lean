/-!
# The journal

What happens is reported as records. A record carries a level, the part of the program that
reports, and a text; records are kept at all levels, and a threshold decides which of them are
shown. `Record.line` is the printed form.
-/

namespace ByteMachine

/-- How important a record is, the most important first. -/
inductive Level where
  | error
  | warn
  | info
  | debug
  | trace
deriving DecidableEq, Repr

namespace Level

/-- The position in the order of importance. -/
def rank : Level → Nat
  | error => 0
  | warn => 1
  | info => 2
  | debug => 3
  | trace => 4

/-- The name in capital letters. -/
def name : Level → String
  | error => "ERROR"
  | warn => "WARN"
  | info => "INFO"
  | debug => "DEBUG"
  | trace => "TRACE"

/-- Under `threshold`, records of this level are shown: they are at least as important. -/
def shownUnder (threshold level : Level) : Bool :=
  level.rank ≤ threshold.rank

end Level

/-- The part of the program that writes a record. -/
inductive Origin where
  | program
  | machine
  | memory
  | listing
deriving DecidableEq, Repr

/-- The name under which a part of the program appears in the journal. -/
def Origin.name : Origin → String
  | .program => "ls8"
  | .machine => "ls8::machine"
  | .memory => "ls8::memory"
  | .listing => "ls8::memory::parse"

/-- One entry of the journal. -/
structure Record where
  level : Level
  origin : Origin
  text : String
deriving DecidableEq, Repr

/-- The printed form of a record: the level in a column of five, the origin in brackets, the
text. -/
def Record.line (r : Record) : String :=
  -- shorter names are filled up with blanks
  String.ofList (r.level.name.toList.rightpad 5 ' ') ++ " [" ++ r.origin.name ++ "] " ++ r.text

example : (Record.mk .info .memory "x").line = "INFO  [ls8::memory] x" := by decide

end ByteMachine
