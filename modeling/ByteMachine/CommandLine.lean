import ByteMachine.CommandLine.Arguments
import ByteMachine.Listing.Loading
import ByteMachine.Session

/-!
# The command line program

The program reads its command line, loads the program file that it names, and runs it on a fresh
machine. The exit code tells what went wrong: a command line that is refused and a program that
cannot be loaded have the code 2, a fault of the machine has the code 1.
-/

namespace ByteMachine.CommandLine

/-- What is printed instead of a run. Only a refusal is an error. -/
def Interruption.answer : Interruption → Answer
  | help => ⟨0, helpText, ""⟩
  | version => ⟨0, versionText, ""⟩
  | misuse error => ⟨2, "", error.paragraphs⟩

/-- The session of an invocation, given what was read at the path of its program. -/
def Invocation.session (i : Invocation) (text : Except ReadError String) : Session :=
  let loading := Loading.ofText i.program text
  match loading.program with
  | .error error =>
    { threshold := i.threshold
      -- the defects come first, and behind them what they amount to
      opening := loading.records ++ [⟨.error, .program, i.program ++ ": " ++ error.message⟩]
      machine := .error ⟨2, []⟩
      context := [] }
  | .ok program =>
    let fresh := (Machine.fresh .unlimited).withStackPointer i.stackPointer
    let loaded := fresh.load program
    { threshold := i.threshold
      opening := loading.records ++ loaded.entries.map Entry.record
      machine :=
        -- a program that was read fits, so the second case does not arise
        match loaded.fault with
        | none => .ok loaded.machine
        | some fault => .error ⟨1, fault.chain⟩
      context := ["Failed to run `" ++ i.program ++ "`"] }

/-- The answer to a command line, if the program that it runs stops within `limit` steps. -/
def answer? (storage : Storage) (arguments : List String) (limit : Nat) : Option Answer :=
  match readArguments arguments with
  | .error interruption => some interruption.answer
  | .ok invocation => (invocation.session (storage.readText invocation.program)).answer? limit

end ByteMachine.CommandLine
