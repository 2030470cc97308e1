import ByteMachine.Machine.Run

/-!
# Sessions

A session is a machine that is prepared and run while somebody watches. First come the records of
the preparation, and either a machine to run or the end of the session. Then the machine runs, and
its output and its records appear as they come, those records at least that reach the threshold.
A fault is reported at the end, message by message from the outermost to the root cause.
-/

namespace ByteMachine

/-! ### What is shown -/

/-- What a record puts on the screen. -/
def Record.shown (threshold : Level) (r : Record) : String :=
  if threshold.shownUnder r.level then r.line ++ "\n" else ""

/-- What an event puts on the screen: the output itself, and records as they are shown. -/
def Event.shown (threshold : Level) : Event → String
  -- what a machine prints is ASCII, so each byte is a character
  | .output bytes => String.ofList (bytes.map fun b => Char.ofNat b.toNat)
  | .noted entry => entry.record.shown threshold

/-- What several events put on the screen. -/
def showEvents (threshold : Level) (events : Array Event) : String :=
  String.join (events.toList.map (Event.shown threshold))

/-! ### Reports -/

/-- The spaces that bring the later lines of a message under its first one. -/
def reportIndent : String := "      "

/-- A numbered message of a report. All its lines are lined up, and an empty one stays empty. -/
def reportEntry (message : String) (number : Nat) : String :=
  let lines := (message.toList.splitOn '\n').map String.ofList
  let later := lines.tail.map fun line => if line = "" then "\n" else "\n" ++ reportIndent ++ line
  "   " ++ toString number ++ ": " ++ lines.headD "" ++ String.join later ++ "\n"

/-- The report of a failure, given by its messages. -/
def report (messages : List String) : String :=
  let entries := messages.zipIdx.map fun (message, number) => reportEntry message number
  "Error:\n" ++ String.join entries

/-! ### Sessions -/

/-- How a session ends: with an exit code, and with a report unless there are no messages. -/
structure Ending where
  code : Nat
  messages : List String
deriving DecidableEq, Repr

/-- The report of an ending. -/
def Ending.report (e : Ending) : String :=
  if e.messages = [] then "" else ByteMachine.report e.messages

/-- A machine that is about to be run. -/
structure Session where
  threshold : Level
  /-- The records of the preparation. -/
  opening : List Record
  /-- The machine to run, or how the session ends without a run. -/
  machine : Except Ending Machine
  /-- What is said in front of the messages of a fault. -/
  context : List String

/-- All that a session leaves behind. -/
structure Answer where
  code : Nat
  stdout : String
  stderr : String
deriving DecidableEq, Repr

namespace Session

/-- The part of the screen that the preparation fills. -/
def shownOpening (s : Session) : String :=
  String.join (s.opening.map (Record.shown s.threshold))

/-- How a session ends after a run. -/
def ending (s : Session) : Option Fault → Ending
  | none => ⟨0, []⟩
  | some fault => ⟨1, s.context ++ fault.chain⟩

/-- The whole session, if its machine stops within `limit` steps. -/
def answer? (s : Session) (limit : Nat) : Option Answer :=
  match s.machine with
  | .error ending => some ⟨ending.code, s.shownOpening, ending.report⟩
  | .ok machine => (machine.run? limit).map fun o =>
    let ending := s.ending o.fault
    ⟨ending.code, s.shownOpening ++ showEvents s.threshold o.events, ending.report⟩

end Session

end ByteMachine
