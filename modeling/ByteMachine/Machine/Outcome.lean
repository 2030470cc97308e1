import ByteMachine.Journal
import ByteMachine.Machine.Deed

/-!
# Outcomes

A call to the machine changes it, has effects that can be seen from outside, and may fail. Its
`Outcome` holds all three: the machine as it is afterwards, the events in the order in which they
took place, and the fault if there was one.

Outcomes are chained by `Outcome.andThen`. The second call acts on the machine that the first one
left, its events come after those of the first, and it does not take place if the first one failed.

Journal entries are kept as data and rendered only when somebody reads them (`Entry.record`).
-/

namespace ByteMachine

/-- What the machine enters into the journal. -/
inductive Entry where
  /-- A program of `count` bytes was loaded. -/
  | loaded (count : Nat)
  /-- A step began, in front of what the snapshot shows. -/
  | fetched (snapshot : Snapshot)
  /-- An instruction was carried out. -/
  | did (deed : Deed)
  /-- A step failed. -/
  | failed (fault : Fault)
  /-- A run came to its end. -/
  | stopped (pc : Address)
deriving DecidableEq

namespace Entry

/-- Faults and the end of a run matter more than deeds, and deeds more than what led to them. -/
def level : Entry → Level
  | loaded _ => .debug
  | fetched _ => .trace
  | did _ => .debug
  | failed _ => .error
  | stopped _ => .info

/-- The text of an entry. -/
def text : Entry → String
  | loaded count => "Loaded " ++ toString count ++ " bytes"
  | fetched snapshot => snapshot.text
  | did deed => deed.text
  | failed fault => fault.message
  | stopped pc => "Program halted at 0x" ++ pc.hex

/-- The record that an entry becomes. -/
def record (e : Entry) : Record where
  level := e.level
  origin := .machine
  text := e.text

end Entry

/-- What can be seen of the machine from outside. -/
inductive Event where
  /-- The sink took these bytes. -/
  | output (bytes : List Byte)
  /-- The journal got this entry. -/
  | noted (entry : Entry)
deriving DecidableEq

/-- The result of a call to the machine. -/
structure Outcome where
  machine : Machine
  /-- What happened, in order. -/
  events : Array Event
  /-- Why the call failed, if it did. -/
  fault : Option Fault
deriving DecidableEq

namespace Outcome

/-- Nothing happens. -/
def quiet (m : Machine) : Outcome := ⟨m, #[], none⟩

/-- Nothing happens but an entry into the journal. -/
def noting (m : Machine) (entry : Entry) : Outcome := ⟨m, #[.noted entry], none⟩

/-- The call fails and nothing happens. -/
def failing (m : Machine) (fault : Fault) : Outcome := ⟨m, #[], some fault⟩

/-- A second call on the machine that the first one left, unless the first one failed. -/
def andThen (o : Outcome) (call : Machine → Outcome) : Outcome :=
  match o with
  -- what happened in front of the fault stays as it is
  | ⟨m, events, some fault⟩ => ⟨m, events, some fault⟩
  | ⟨m, events, none⟩ =>
    let next := call m
    ⟨next.machine, events ++ next.events, next.fault⟩

/-- Every byte that the sink took, in order. -/
def output (o : Outcome) : List Byte :=
  o.events.toList.flatMap fun
    | .output bytes => bytes
    | .noted _ => []

/-- Every entry that the journal got, in order. -/
def entries (o : Outcome) : List Entry :=
  o.events.toList.filterMap fun
    | .output _ => none
    | .noted entry => some entry

@[simp] theorem andThen_quiet (m : Machine) (call : Machine → Outcome) :
    (quiet m).andThen call = call m := by
  simp [quiet, andThen]

@[simp] theorem andThen_failing (m : Machine) (fault : Fault) (call : Machine → Outcome) :
    (failing m fault).andThen call = failing m fault := rfl

/-- Chaining is associative, so a sequence of calls has one outcome however it is grouped. -/
theorem andThen_assoc (o : Outcome) (f g : Machine → Outcome) :
    (o.andThen f).andThen g = o.andThen fun m => (f m).andThen g := by
  obtain ⟨m, events, _ | fault⟩ := o
  · -- the first call succeeded, so the other two decide how it goes on
    rcases hf : f m with ⟨m', more, _ | fault⟩ <;> simp [andThen, hf, Array.append_assoc]
  · rfl

end Outcome

end ByteMachine
