import ByteMachine.Machine.Step

/-!
# Runs

A run steps the machine until it stops or fails. Since a program may go on for ever, a run has a
limit to the number of its steps, and there is no outcome if the machine is still running after
that many. A run of a machine that has already stopped makes no step and succeeds.
-/

namespace ByteMachine

namespace Outcome

/-- There is nothing left to step: the machine has stopped, or a step has failed. -/
def isOver (o : Outcome) : Bool :=
  o.fault.isSome || !o.machine.running

/-- Goes on by `n` steps, or by fewer if it is over before. -/
def advance (o : Outcome) : (n : Nat) → Outcome
  | 0 => o
  | n + 1 => if o.isOver then o else (o.andThen Machine.step).advance n

/-- The number of steps that were made. Each begins with a look at the machine. -/
def steps (o : Outcome) : Nat :=
  o.entries.countP fun
    | .fetched _ => true
    | _ => false

/-- The outcome of a run that is over. If it did not fail, its end is entered into the journal. -/
def conclude (o : Outcome) : Outcome :=
  -- behind a fault there is no end to note
  o.andThen fun m => noting m (.stopped m.pc)

end Outcome

namespace Machine

/-- Steps the machine `n` times, or less often if it stops before. -/
def advance (m : Machine) (n : Nat) : Outcome :=
  (Outcome.quiet m).advance n

/-- Runs the machine until it stops, if it does so within `limit` steps. -/
def run? (m : Machine) (limit : Nat) : Option Outcome :=
  let o := m.advance limit
  if o.isOver then some o.conclude else none

end Machine

end ByteMachine
