import ByteMachine.Byte

/-!
# Output sinks

What the machine prints goes into a sink. A sink may have a limit to the bytes it takes in all. A
write that would exceed the limit is taken in part, up to the limit, and then fails.
-/

namespace ByteMachine

/-- A sink, with all bytes it has taken so far. -/
structure Sink where
  taken : Array Byte
  /-- The number of bytes it takes in all, if that is limited. -/
  limit : Option Nat
deriving DecidableEq

namespace Sink

/-- An empty sink without limit. -/
def unlimited : Sink := ⟨#[], none⟩

/-- An empty sink that takes `n` bytes in all. -/
def limited (n : Nat) : Sink := ⟨#[], some n⟩

/-- The part of `bytes` that the sink still takes. -/
def accepted (s : Sink) (bytes : List Byte) : List Byte :=
  match s.limit with
  | none => bytes
  -- what exceeds the limit is cut off
  | some n => bytes.take (n - s.taken.size)

/-- The sink takes all of `bytes`. -/
def fits (s : Sink) (bytes : List Byte) : Bool :=
  match s.limit with
  | none => true
  | some n => s.taken.size + bytes.length ≤ n

/-- The sink after a write of `bytes`, which fails unless all of them fit. -/
def write (s : Sink) (bytes : List Byte) : Sink :=
  { s with taken := s.taken.appendList (s.accepted bytes) }

/-- The text with which a full sink refuses a write. -/
def fullMessage : String := "sink full"

/-- All bytes that the sink has taken. -/
def toList (s : Sink) : List Byte :=
  s.taken.toList

/-- A write puts what is accepted behind everything else. -/
@[simp] theorem toList_write (s : Sink) (bytes : List Byte) :
    (s.write bytes).toList = s.toList ++ s.accepted bytes := by
  simp [write, toList]

/-- What fits is accepted as a whole. -/
theorem accepted_of_fits {s : Sink} {bytes : List Byte} (h : s.fits bytes) :
    s.accepted bytes = bytes := by
  unfold fits at h
  unfold accepted
  split
  · rfl
  · rename_i n hn
    rw [hn] at h
    simp only [decide_eq_true_eq] at h
    exact List.take_of_length_le (by omega)

end Sink

end ByteMachine
