import ByteMachine.Listing.Numeral
import ByteMachine.Memory

/-!
# Defects of a listing

A listing is refused either because some of its lines are malformed, each of which is a defect of
its own, or because its bytes do not fit into memory, which is one defect of the whole listing and
belongs to the first line that did not fit.
-/

namespace ByteMachine

/-- What is wrong with a listing. -/
inductive Defect.Cause where
  /-- A line that holds `text` and is not the numeral of a byte. -/
  | malformed (text : String)
  /-- More bytes than memory has cells; there are `size` of them in the whole listing. -/
  | tooLarge (size : Nat)
deriving DecidableEq, Repr

/-- Something that is wrong with a listing, at a line counted from one. -/
structure Defect where
  line : Nat
  cause : Defect.Cause
deriving DecidableEq, Repr

namespace Defect

/-- What kind of defect it is, in words. -/
def Cause.kindText : Cause → String
  | malformed _ => "failed to parse byte with radix `" ++ toString Numeral.radix ++ "`"
  | tooLarge size => Memory.tooLargeMessage size

/-- What is special about this defect of its kind. -/
def context (d : Defect) : String :=
  match d.cause with
  | .malformed text => "`" ++ text ++ "` is not a binary byte"
  | .tooLarge _ => "bytes from line " ++ toString d.line ++ " on are outside of memory"

/-- The text of a defect. -/
def message (d : Defect) : String :=
  "error [ln: " ++ toString d.line ++ "]: " ++ d.cause.kindText ++ " - " ++ d.context

end Defect

end ByteMachine
