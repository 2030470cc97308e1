import ByteMachine.Journal
import ByteMachine.Machine
import ByteMachine.CommandLine.Token
import ByteMachine.CommandLine.Usage

/-!
# Reading a command line

A command line is read from left to right, and the first thing that is wrong with it is reported.
What makes this less simple than it sounds is that a value is not checked when it is read. It is
held back, and settled only when the next known argument begins or the command line ends. So an
argument that is not known is reported even if a value in front of it is bad.

The stack pointer takes its value from the next argument, unless that one looks like an option.
Behind the separator every argument is taken for the program.
-/

namespace ByteMachine.CommandLine

/-- What a well-formed command line asks for. -/
structure Invocation where
  /-- The path of the program. -/
  program : String
  stackPointer : Byte
  /-- How often more was asked for in the journal. -/
  verbosity : Nat
deriving DecidableEq, Repr

/-- The threshold for the journal. -/
def Invocation.threshold (i : Invocation) : Level :=
  match i.verbosity with
  | 0 => .warn
  | 1 => .info
  | 2 => .debug
  | _ => .trace

/-- Why a command line is not read to its end. -/
inductive Interruption where
  | help
  | version
  | misuse (error : UsageError)
deriving DecidableEq, Repr

/-- A parameter that has not been settled yet. -/
structure Held where
  parameter : Parameter
  /-- Its value, if there was one already. -/
  value? : Option String
deriving DecidableEq, Repr

/-- What has been read of a command line. -/
structure Progress where
  program : Option String
  stackPointer : Option Byte
  verbosity : Nat
  held : Option Held
  /-- The separator has been read. -/
  separated : Bool
deriving DecidableEq, Repr

namespace Progress

/-- Nothing has been read. -/
def start : Progress where
  program := none
  stackPointer := none
  verbosity := 0
  held := none
  separated := false

/-- The stack pointer that a value denotes. -/
def stackPointerOf (value : String) : Except UsageError Byte :=
  match Text.integer value.toList with
  | .error reason => .error (.notInteger value reason)
  | .ok n => if 0 ≤ n ∧ n < 256 then .ok (UInt8.ofNat n.toNat) else .error (.notByte value n)

/-- Checks the parameter that is held back and makes it count. -/
def settle (p : Progress) : Except UsageError Progress :=
  match p.held with
  | none => .ok p
  | some ⟨parameter, none⟩ => .error (.missingValue parameter)
  | some ⟨.stackPointer, some value⟩ =>
    -- a second stack pointer is refused whatever its value is
    if p.stackPointer.isSome then
      .error (.repeated .stackPointer)
    else
      (stackPointerOf value).map fun sp => { p with held := none, stackPointer := some sp }
  | some ⟨.program, some value⟩ =>
    if value = "" then
      .error (.missingValue .program)
    else
      .ok { p with held := none, program := some value }

/-- Settles what is held back and holds back a parameter instead. -/
def hold (p : Progress) (parameter : Parameter) (value? : Option String) :
    Except UsageError Progress :=
  p.settle.map fun p => { p with held := some ⟨parameter, value?⟩ }

/-- The stack pointer has been named and its value is to come. -/
def awaitsValue (p : Progress) : Bool :=
  p.held == some ⟨.stackPointer, none⟩

/-- The program has been read. -/
def hasProgram (p : Progress) : Bool :=
  -- a program that is held back has been read as well
  p.program.isSome || p.held.any (·.parameter == .program)

/-- Reads the path of the program. -/
def readProgram (p : Progress) (argument : String) : Except UsageError Progress :=
  if p.hasProgram then .error (.unexpectedArgument argument)
  else p.hold .program (some argument)

/-- Reads a switch. Help and version end the reading. -/
def readSwitch (p : Progress) (switch : Switch) : Except Interruption Progress := do
  -- a value in front of the switch may be bad, and then no help is given
  let p ← p.settle.mapError .misuse
  match switch with
  | .verbose => return { p with verbosity := p.verbosity + 1 }
  | .help => throw .help
  | .version => throw .version

/-- Reads a long name with the value that it carries. -/
def readLong (p : Progress) (name : String) (value? : Option String) :
    Except Interruption Progress :=
  if name = stackPointerName then
    match value? with
    | none => (p.hold .stackPointer none).mapError .misuse
    -- a value behind an equals sign is settled at once
    | some value => (p.hold .stackPointer (some value) >>= settle).mapError .misuse
  else
    match Switch.ofName? name, value? with
    | some switch, none => p.readSwitch switch
    | some switch, some value => .error (.misuse (.unexpectedValue value switch))
    | none, _ => .error (.misuse (.unexpectedArgument ("--" ++ name)))

/-- Reads one letter of a cluster. -/
def readLetter (p : Progress) (letter : Char) : Except Interruption Progress :=
  match Switch.ofLetter? letter with
  | some switch => p.readSwitch switch
  | none => .error (.misuse (.unexpectedArgument (String.ofList ['-', letter])))

/-- Reads one argument. -/
def read (p : Progress) (argument : String) : Except Interruption Progress :=
  if p.separated then
    -- behind the separator nothing is an option
    (p.readProgram argument).mapError .misuse
  else
    match Token.ofArgument argument with
    | .separator => .ok { p with separated := true }
    | .long name value? => p.readLong name value?
    | .cluster letters => letters.foldlM readLetter p
    | .plain =>
      if p.awaitsValue then
        -- the value is held back as well, whatever its text is
        .ok { p with held := some ⟨.stackPointer, some argument⟩ }
      else
        (p.readProgram argument).mapError .misuse

/-- What a command line asks for that has been read to its end. -/
def finish (p : Progress) : Except UsageError Invocation := do
  let p ← p.settle
  match p.program with
  | none => throw .missingProgram
  | some program =>
    return {
      program := program
      stackPointer := p.stackPointer.getD Machine.initialStackPointer
      verbosity := p.verbosity }

end Progress

/-- Reads a command line. -/
def readArguments (arguments : List String) : Except Interruption Invocation := do
  let p ← arguments.foldlM Progress.read .start
  p.finish.mapError .misuse

end ByteMachine.CommandLine
