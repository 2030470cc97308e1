import ByteMachine.Text.Escape
import ByteMachine.Text.Integer

/-!
# What a command line may contain

There is one value that a command line must have, the program file, one that it may have, the
initial stack pointer, and there are three switches, which take no value. This module names them and
holds the texts that are printed about them: the help, the version, and the refusals of command
lines that are not well formed. A refusal quotes what was given as far as it can be seen, so that an
argument cannot play tricks on the terminal.
-/

namespace ByteMachine.CommandLine

/-- An argument without a value. -/
inductive Switch where
  | verbose
  | help
  | version
deriving DecidableEq, Repr

namespace Switch

/-- The switch of a long name. -/
def ofName? : String → Option Switch
  | "verbose" => some verbose
  | "help" => some help
  | "version" => some version
  | _ => none

/-- The switch of a letter. -/
def ofLetter? : Char → Option Switch
  | 'v' => some verbose
  | 'h' => some help
  | 'V' => some version
  | _ => none

/-- How a switch is shown. The dots say that it may be repeated. -/
def shown : Switch → String
  | verbose => "--verbose..."
  | help => "--help"
  | version => "--version"

end Switch

/-- An argument with a value. -/
inductive Parameter where
  | stackPointer
  | program
deriving DecidableEq, Repr

/-- How a parameter is shown. -/
def Parameter.shown : Parameter → String
  | stackPointer => "--stack-pointer <STACK_POINTER>"
  | program => "<PROGRAM>"

/-- The long name in front of the value of the stack pointer. -/
def stackPointerName : String := "stack-pointer"

/-- Why a command line is refused. -/
inductive UsageError where
  /-- There is no such argument, or no place for another one. -/
  | unexpectedArgument (argument : String)
  /-- A switch was given a value. -/
  | unexpectedValue (value : String) (switch : Switch)
  /-- A parameter was given no value. -/
  | missingValue (parameter : Parameter)
  /-- A parameter was given more than once. -/
  | repeated (parameter : Parameter)
  /-- The stack pointer is not an integer. -/
  | notInteger (value : String) (reason : Text.IntegerError)
  /-- The stack pointer is the integer `n`, which is not a byte. -/
  | notByte (value : String) (n : Int)
  /-- There is no program. -/
  | missingProgram
deriving DecidableEq, Repr

/-- What is seen of a text, in quotes. -/
def quoted (text : String) : String :=
  "'" ++ Text.visible text ++ "'"

/-- The refusal of a value of the stack pointer. -/
def invalidStackPointer (value reason : String) : String :=
  "invalid value " ++ quoted value ++ " for '" ++ Parameter.stackPointer.shown ++ "': " ++ reason

/-- The text of a usage error. -/
def UsageError.message : UsageError → String
  | unexpectedArgument argument => "unexpected argument " ++ quoted argument ++ " found"
  | unexpectedValue value switch =>
    "unexpected value " ++ quoted value ++ " for '" ++ switch.shown ++
      "' found; no more were expected"
  | missingValue parameter =>
    "a value is required for '" ++ parameter.shown ++ "' but none was supplied"
  | repeated parameter =>
    "the argument '" ++ parameter.shown ++ "' cannot be used multiple times"
  | notInteger value reason => invalidStackPointer value reason.message
  | notByte value n => invalidStackPointer value (toString n ++ " is not in 0..=255")
  | missingProgram =>
    "the following required arguments were not provided:\n  " ++ Parameter.program.shown

/-- The form of a well-formed command line. -/
def usage : String := "Usage: ls8 [OPTIONS] <PROGRAM>"

/-- What is printed about a usage error: its text, then where to find out more. -/
def UsageError.paragraphs (e : UsageError) : String :=
  "error: " ++ e.message ++ "\n\n" ++ usage ++ "\n\nFor more information, try '--help'.\n"

/-- The help. -/
def helpText : String :=
  "Runs a program on the LS-8 machine\n\n" ++ usage ++ "\n\n" ++
  "Arguments:\n" ++
  "  <PROGRAM>  Program file, one binary byte per line\n\n" ++
  "Options:\n" ++
  "      --stack-pointer <STACK_POINTER>  " ++
    "Initial value of the stack pointer (R7) [default: 0]\n" ++
  "  -v, --verbose...                     " ++
    "Log more, repeat for even more (-v info, -vv debug, -vvv trace)\n" ++
  "  -h, --help                           Print help\n" ++
  "  -V, --version                        Print version\n"

/-- The version. -/
def versionText : String := "ls8 0.1.0\n"

end ByteMachine.CommandLine
