import ByteMachine.Machine.Run

/-!
# Calls from outside

A machine can be stepped and run, made to execute an instruction that it has not fetched, loaded,
looked at and written to, all in any order and whether or not it is running. `Call` lists these
calls, `Machine.Returns` says with which outcome a call comes back, and `Machine.LeadsTo` puts calls
one after the other.

What every single call keeps, every sequence of calls keeps (`LeadsTo.preserves`).
-/

namespace ByteMachine

/-- A call to a machine from outside. -/
inductive Call where
  | step
  | run
  | execute (i : Instruction) (a b : Byte)
  | load (program : List Byte)
  | read (address : Address)
  | write (address : Address) (value : Byte)
  | trace
  | compare (a b : Byte)
  | clearFlags

namespace Machine

/-- The call comes back with the outcome. Every call but a run does, and a run does if it ends. -/
inductive Returns (m : Machine) : Call → Outcome → Prop where
  | step : Returns m .step m.step
  | run {limit : Nat} {o : Outcome} (h : m.run? limit = some o) : Returns m .run o
  | execute (i : Instruction) (a b : Byte) : Returns m (.execute i a b) (m.execute i a b)
  | load (program : List Byte) : Returns m (.load program) (m.load program)
  | read (address : Address) : Returns m (.read address) (.quiet m)
  | write (address : Address) (value : Byte) :
      Returns m (.write address value) (.quiet { m with memory := m.memory.write address value })
  | trace : Returns m .trace (.quiet m)
  | compare (a b : Byte) : Returns m (.compare a b) (.quiet { m with flags := .ofCompare a b })
  | clearFlags : Returns m .clearFlags (.quiet { m with flags := .clear })

/-- The calls, made one after the other, all come back and leave the machine `m'`. A call that fails
does not keep the next one from being made. -/
inductive LeadsTo : Machine → List Call → Machine → Prop where
  | nil (m : Machine) : LeadsTo m [] m
  | cons {m m' : Machine} {c : Call} {cs : List Call} {o : Outcome} (h : m.Returns c o)
      (hs : LeadsTo o.machine cs m') : LeadsTo m (c :: cs) m'

/-- **What every call keeps, every sequence of calls keeps.** -/
theorem LeadsTo.preserves {p : Machine → Prop}
    (hp : ∀ m c o, Returns m c o → p m → p o.machine) {m m' : Machine} {cs : List Call}
    (h : m.LeadsTo cs m') (hm : p m) : p m' := by
  -- by induction on the calls, each of which starts where the one in front of it ended
  induction h with
  | nil m => exact hm
  | cons hreturns _ ih => exact ih (hp _ _ _ hreturns hm)

end Machine

end ByteMachine
