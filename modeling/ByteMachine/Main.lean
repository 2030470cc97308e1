import ByteMachine.CommandLine

/-!
# The program

The outer layer of the command line program: it reads the file that the command line names, shows
the session while it goes on, and exits with its code.
-/

namespace ByteMachine

/-- The number of a system error. Some sources give it with its sign changed. -/
def errorNumber (code : UInt32) : UInt32 :=
  if code < 0x80000000 then code else 0 - code

/-- The read error that a system error is. -/
def ReadError.ofSystem (code : UInt32) (details : String) : ReadError :=
  match errorNumber code with
  | 2 => .notFound
  | 20 => .notDirectory
  | 21 => .isDirectory
  | 36 => .nameTooLong
  | number => .other (details ++ " (os error " ++ toString number ++ ")")

/-- The read error that a failure to read a file is. -/
def ReadError.ofFailure : IO.Error → ReadError
  | .noFileOrDirectory .. => .notFound
  | .inappropriateType _ code details => .ofSystem code details
  | .invalidArgument _ code details => .ofSystem code details
  | .permissionDenied _ code details => .ofSystem code details
  | .resourceExhausted _ code details => .ofSystem code details
  | .hardwareFault code details => .ofSystem code details
  | .otherError code details => .ofSystem code details
  | failure => .other (toString failure)

/-- The text of the file at a path. -/
def readTextFile (path : String) : IO (Except ReadError String) := do
  -- the system would take the path to end at this character
  if path.any (· == '\x00') then
    return .error .invalidName
  try
    return Storage.decode (← IO.FS.readBinFile path)
  catch failure =>
    return .error (.ofFailure failure)

/-- Runs a machine and shows each step when it has been made. -/
partial def showRun (threshold : Level) (m : Machine) : IO (Option Fault) := do
  let o := m.advance 1
  -- the end of a run belongs to the last of its steps
  let shown := if o.isOver then o.conclude else o
  IO.print (showEvents threshold shown.events)
  if o.isOver then return o.fault else showRun threshold o.machine

/-- Shows a session and gives its exit code. -/
def Session.display (s : Session) : IO UInt32 := do
  IO.print s.shownOpening
  let ending ←
    match s.machine with
    | .error ending => pure ending
    | .ok m => s.ending <$> showRun s.threshold m
  IO.eprint ending.report
  return ending.code.toUInt32

/-- Gives the answer that stands for a session. -/
def Answer.display (a : Answer) : IO UInt32 := do
  IO.print a.stdout
  IO.eprint a.stderr
  return a.code.toUInt32

end ByteMachine

open ByteMachine in
/-- Reads the command line and does what it asks for. -/
def main (arguments : List String) : IO UInt32 := do
  match CommandLine.readArguments arguments with
  | .error interruption => interruption.answer.display
  | .ok invocation => (invocation.session (← readTextFile invocation.program)).display
