import ByteMachine.Code
import ByteMachine.Listing.Loading
import ByteMachine.Memory.Dump
import ByteMachine.Session

/-!
# Demonstrations

Three sessions that need no command line: the addition of two constants, a call of a subroutine,
and a program that is read from a fixed path, shown and run.
-/

namespace ByteMachine

/-- The demonstrations. -/
inductive Demo where
  | add
  | call
  | parse
deriving DecidableEq, Repr

namespace Demo

/-- The demonstration of a name. -/
def ofName? : String → Option Demo
  | "add" => some add
  | "call" => some call
  | "parse" => some parse
  | _ => none

/-- Adds eight and nine and prints the sum. -/
def addition : List CodeItem :=
  [ Instruction.ldi, 0, 8,
    Instruction.ldi, 1, 9,
    Instruction.add, 0, 1,
    Instruction.prn, 0,
    Instruction.hlt ]

/-- The address of the subroutine. -/
def doubling : Address := 0x10

/-- Doubles 21 by a call of the subroutine and prints the result. -/
def caller : List CodeItem :=
  [ Instruction.ldi, 1, .number doubling.toNat,
    Instruction.ldi, 0, 21,
    Instruction.call, 1,
    Instruction.prn, 0,
    Instruction.hlt ]

/-- The subroutine: doubles register 0. -/
def subroutine : List CodeItem :=
  [ Instruction.add, 0, 0,
    Instruction.ret ]

/-- The path of the program that is read. -/
def programPath : String := "demos/programs/mult.ls8"

/-- A session that runs a memory without further preparation. -/
def run (threshold : Level) (opening : List Record) (memory : Memory) (sp : Byte) : Session where
  threshold := threshold
  opening := opening
  -- the memory is set as a whole, so no loading is entered into the journal
  machine := .ok { (Machine.fresh .unlimited).withStackPointer sp with memory := memory }
  context := []

/-- The session of a demonstration. -/
def session (storage : Storage) : Demo → Session
  | add => run .trace [] (Memory.zero.writeCode 0 addition) Machine.initialStackPointer
  | call =>
    let memory := (Memory.zero.writeCode 0 caller).writeCode doubling subroutine
    run .debug [] memory Machine.stackTop
  | parse =>
    let loading := storage.loadProgram programPath
    match loading.memory with
    | .ok memory =>
      run .trace (loading.records ++ memory.dump) memory Machine.initialStackPointer
    | .error error =>
      { threshold := .trace
        opening := loading.records
        machine := .error ⟨1, [programPath ++ ": " ++ error.message]⟩
        context := [] }

end Demo

end ByteMachine
