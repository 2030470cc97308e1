import ByteMachine.Machine.Outcome

/-!
# Calls to the machine

`Machine.execute` carries out one given instruction, `Machine.step` fetches the instruction at the
program counter and carries it out, and `Machine.load` puts a program into memory.

Whether the machine is running concerns only the step: a machine that has stopped is not stepped,
and a step that fails stops the machine. To execute an instruction is possible in either case.
-/

namespace ByteMachine

namespace Machine

/-- Prints a value on a line of its own. The sink may take only a part of it. -/
def print (m : Machine) (value : Byte) : Outcome where
  machine := { m with sink := m.sink.write value.decimalLine }
  events := #[.output (m.sink.accepted value.decimalLine)]
  fault := if m.sink.fits value.decimalLine then none else some .outputFailed

/-- Puts a deed into effect and enters it into the journal. What has to be printed comes first, and
if that fails nothing else happens. -/
def perform (m : Machine) (d : Deed) : Outcome :=
  -- only a deed that prints can meet a full sink
  let printing :=
    match d.printed? with
    | some value => m.print value
    | none => .quiet m
  printing.andThen fun m => .noting (m.apply d) (.did d)

/-- Carries out the instruction `i` with the operand bytes `a` and `b`. -/
def execute (m : Machine) (i : Instruction) (a b : Byte) : Outcome :=
  match m.deed i a b with
  | .ok d => m.perform d
  | .error fault => .failing m fault

end Machine

/-- A fault stops the machine for good and is entered into the journal. -/
def Outcome.stopOnFault (o : Outcome) : Outcome :=
  match o.fault with
  | none => o
  | some fault =>
    { o with
      machine := { o.machine with running := false }
      events := o.events.push (.noted (.failed fault)) }

namespace Machine

/-- Decodes and carries out what a snapshot shows. -/
def executeFetched (m : Machine) (s : Snapshot) : Outcome :=
  match Instruction.ofOpcode? s.opcode with
  | some i => m.execute i s.first s.second
  | none => .failing m (.illegalInstruction s.opcode s.pc)

/-- One step of a running machine: it takes a look, then carries out what it sees. -/
def step (m : Machine) : Outcome :=
  if m.running then
    -- the look is noted even if the step fails
    (Outcome.noting m (.fetched m.snapshot)).andThen fun m =>
      (m.executeFetched m.snapshot).stopOnFault
  else
    .failing m .halted

/-- Copies a program into memory from address 0 on. All else stays as it is. -/
def load (m : Machine) (program : List Byte) : Outcome :=
  if program.length ≤ Memory.size then
    .noting { m with memory := m.memory.writeAll 0 program } (.loaded program.length)
  else
    .failing m (.programTooLarge program.length)

end Machine

end ByteMachine
