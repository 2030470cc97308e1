/-!
# Arguments by their form

The form of an argument depends on its hyphens alone. Two of them begin a long name, which may carry
a value behind an equals sign, and one begins a cluster of letters, each of which stands for itself.
Two hyphens with nothing behind them separate, and a single hyphen with nothing behind it is an
ordinary value.
-/

namespace ByteMachine.CommandLine

/-- An argument, read by its form. -/
inductive Token where
  | separator
  | long (name : String) (value? : Option String)
  | cluster (letters : List Char)
  | plain
deriving DecidableEq, Repr

namespace Token

/-- The long name and the value in the text behind two hyphens. -/
def ofLong (cs : List Char) : Token :=
  let name := String.ofList (cs.takeWhile (· != '='))
  match cs.dropWhile (· != '=') with
  -- nothing behind an equals sign is an empty value, and without one there is none
  | [] => long name none
  | _ :: value => long name (some (String.ofList value))

/-- The form of an argument. -/
def ofArgument (argument : String) : Token :=
  match argument.toList with
  | ['-', '-'] => separator
  | '-' :: '-' :: rest => ofLong rest
  | '-' :: letter :: rest => cluster (letter :: rest)
  | _ => plain

end Token

end ByteMachine.CommandLine
