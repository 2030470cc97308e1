import ByteMachine.CommandLine.Arguments
import Mathlib.Data.UInt

/-!
# Reading what an invocation looks like

Every invocation is what some command line asks for: as many switches as its verbosity says, its
stack pointer, and its program (`readArguments_arguments`). The reading is followed argument by
argument. The switches count, and the two values are held back until the next argument or the end of
the command line settles them.
-/

namespace ByteMachine.CommandLine

variable {p : Progress} {argument : String}

/-! ### One argument -/

section

variable (hseparated : p.separated = false)

include hseparated

/-- The `if` of `Progress.read` asks for `separated = true`. -/
theorem not_separated : ¬p.separated = true := by
  rw [hseparated]
  exact Bool.false_ne_true

/-- An argument that starts with two dashes is the name of a value or a switch. -/
theorem read_of_long {name : String} {value? : Option String}
    (h : Token.ofArgument argument = .long name value?) :
    p.read argument = p.readLong name value? := by
  rw [Progress.read, if_neg (not_separated hseparated), h]

/-- An argument that starts with one dash is read letter by letter. -/
theorem read_of_cluster {letters : List Char} (h : Token.ofArgument argument = .cluster letters) :
    p.read argument = letters.foldlM Progress.readLetter p := by
  rw [Progress.read, if_neg (not_separated hseparated), h]

/-- Any other argument is the value that is awaited, or else the program. -/
theorem read_of_plain (h : Token.ofArgument argument = .plain) :
    p.read argument =
      if p.awaitsValue then .ok { p with held := some ⟨.stackPointer, some argument⟩ }
      else (p.readProgram argument).mapError .misuse := by
  rw [Progress.read, if_neg (not_separated hseparated), h]

/-- A switch counts at once if nothing is held back. -/
theorem read_verbose (hheld : p.held = none) :
    p.read "-v" = .ok { p with verbosity := p.verbosity + 1 } := by
  have hsettle : p.settle = .ok p := by rw [Progress.settle, hheld]
  have htoken : Token.ofArgument "-v" = .cluster ['v'] := by decide
  -- a cluster of a single letter, which is the switch itself
  rw [read_of_cluster hseparated htoken, List.foldlM_cons]
  show (p.readSwitch .verbose >>= pure) = _
  rw [Progress.readSwitch, hsettle]
  rfl

end

/-- An argument that is read without an error leads on to the rest. -/
theorem foldlM_read_cons {q : Progress} (h : p.read argument = .ok q) (rest : List String) :
    (argument :: rest).foldlM Progress.read p = rest.foldlM Progress.read q := by
  rw [List.foldlM_cons, h]
  rfl

/-- Each `-v` counts once. -/
theorem foldlM_replicate_verbose (hheld : p.held = none) (hseparated : p.separated = false)
    (k : Nat) :
    (List.replicate k "-v").foldlM Progress.read p =
      .ok { p with verbosity := p.verbosity + k } := by
  induction k generalizing p with
  | zero => rfl
  | succ k ih =>
    rw [List.replicate_succ, foldlM_read_cons (read_verbose hseparated hheld)]
    -- the induction goes from the left, so the switch that was read is already in the start of `ih`
    have hmore : p.verbosity + 1 + k = p.verbosity + (k + 1) := by omega
    rw [← hmore]
    exact ih hheld hseparated

/-- A byte in decimal digits is a value, and it denotes that byte. -/
theorem stackPointerOf_decimal (sp : Byte) :
    Token.ofArgument sp.decimal = .plain ∧ Progress.stackPointerOf sp.decimal = .ok sp := by
  -- a statement about 256 numerals, which are looked at one by one
  have hall : ∀ n < 256, Token.ofArgument (toString n) = .plain ∧
      Progress.stackPointerOf (toString n) = .ok (UInt8.ofNat n) := by decide +kernel
  have h := hall sp.toNat sp.toNat_lt
  rw [UInt8.ofNat_toNat] at h
  exact h

/-! ### A whole command line -/

/-- The command line of an invocation: the switches, the stack pointer, the program. -/
def Invocation.arguments (i : Invocation) : List String :=
  List.replicate i.verbosity "-v" ++ ["--stack-pointer", i.stackPointer.decimal, i.program]

/-- **The command line of an invocation asks for that invocation**, if the path of the program
cannot be taken for anything else. -/
theorem readArguments_arguments {i : Invocation} (hne : i.program ≠ "")
    (hplain : Token.ofArgument i.program = .plain) : readArguments i.arguments = .ok i := by
  obtain ⟨hvalue, hsp⟩ := stackPointerOf_decimal i.stackPointer
  -- what has been read behind the switches, behind the name, behind the value, and in the end
  let p : Progress := { Progress.start with verbosity := 0 + i.verbosity }
  let named : Progress := { p with held := some ⟨.stackPointer, none⟩ }
  let valued : Progress := { p with held := some ⟨.stackPointer, some i.stackPointer.decimal⟩ }
  let last : Progress :=
    { p with stackPointer := some i.stackPointer, held := some ⟨.program, some i.program⟩ }
  -- the name is held back, as the value may be the next argument
  have hname : p.read "--stack-pointer" = .ok named := by
    have htoken : Token.ofArgument "--stack-pointer" = .long stackPointerName none := by decide
    rw [read_of_long rfl htoken]
    rfl
  -- the next argument is that value, and it is held back as well until it is looked at
  have hheld : named.read i.stackPointer.decimal = .ok valued := by
    rw [read_of_plain rfl hvalue]
    rfl
  -- the program settles it: here the decimal digits become a byte
  have hprogram : valued.read i.program = .ok last := by
    rw [read_of_plain rfl hplain]
    show (((Progress.stackPointerOf i.stackPointer.decimal).map _).map _).mapError _ = _
    rw [hsp]
    rfl
  -- and the end of the command line settles the program
  have hfinish : last.finish = .ok i := by
    have hsettle : last.settle = .ok { last with held := none, program := some i.program } :=
      if_neg hne
    rw [Progress.finish, hsettle]
    show Except.ok (Invocation.mk i.program i.stackPointer (0 + i.verbosity)) = .ok i
    rw [Nat.zero_add]
  -- the three arguments behind the switches in one go
  have hread : ["--stack-pointer", i.stackPointer.decimal, i.program].foldlM Progress.read p =
      .ok last := by
    rw [foldlM_read_cons hname, foldlM_read_cons hheld, foldlM_read_cons hprogram]
    rfl
  rw [readArguments, Invocation.arguments, List.foldlM_append, foldlM_replicate_verbose rfl rfl]
  show ((["--stack-pointer", i.stackPointer.decimal, i.program].foldlM Progress.read p) >>= _) = _
  rw [hread]
  show last.finish.mapError _ = _
  rw [hfinish]
  rfl

end ByteMachine.CommandLine
