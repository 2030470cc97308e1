import ByteMachine.Byte

/-!
# Condition flags

The flags remember the outcome of the last comparison, or that there was none yet. As a byte they
have one bit per outcome, so at most one bit is ever set.
-/

namespace ByteMachine

/-- The outcome of the last comparison. -/
structure Flags where
  last : Option Ordering
deriving DecidableEq, Repr

namespace Flags

/-- The flags before the first comparison. -/
def clear : Flags := ⟨none⟩

/-- The flags after comparing `a` to `b` as unsigned numbers, whatever they were before. -/
def ofCompare (a b : Byte) : Flags := ⟨some (compare a b)⟩

/-- The last comparison found its two sides equal. -/
def equal (f : Flags) : Bool := f.last == some .eq

/-- The last comparison found its left side greater. -/
def greater (f : Flags) : Bool := f.last == some .gt

/-- The last comparison found its left side less. -/
def less (f : Flags) : Bool := f.last == some .lt

/-- The flags as a byte: 1 for equal, 2 for greater, 4 for less. -/
def bits (f : Flags) : Byte :=
  match f.last with
  | none => 0
  | some .eq => 1
  | some .gt => 2
  | some .lt => 4

end Flags

end ByteMachine
