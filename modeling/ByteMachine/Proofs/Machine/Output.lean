import ByteMachine.Proofs.Machine.Printing
import ByteMachine.Proofs.Text.Decimal

/-!
# The output tells the printed values

A step writes something only if it carries out a print instruction, and then it writes the digits of
one value and a line feed (`Machine.prints_step`). So, as long as no write fails, what a sequence of
steps writes is made up of the lines of the values that it prints (`Machine.written_eq`).

Nothing is lost in it. The lines can be told apart, because digits hold no line feed, and every line
is read as the number that was printed (`numbersOn_decimalLines`). Hence the values can be told from
the output alone (`Machine.output_is_lossless`).
-/

namespace ByteMachine

/-- The numbers on the lines of an output. What stands behind the last line feed is not a line. -/
def numbersOn (output : List Byte) : List Nat :=
  (output.splitOn 0x0A).dropLast.map Byte.numberOf

/-- **The lines of bytes are read as the numbers that the bytes are.** -/
theorem numbersOn_decimalLines (values : List Byte) :
    numbersOn (values.flatMap Byte.decimalLine) = values.map UInt8.toNat := by
  rw [numbersOn, Byte.splitOn_decimalLines, List.dropLast_concat, List.map_map]
  exact List.map_congr_left fun value _ => value.numberOf_digits

/-- Different values have different lines. -/
theorem decimalLines_injective {values values' : List Byte}
    (h : values.flatMap Byte.decimalLine = values'.flatMap Byte.decimalLine) :
    values = values' := by
  have hnumbers := congrArg numbersOn h
  -- a number is read back on each line, and a byte is determined by its number
  rw [numbersOn_decimalLines, numbersOn_decimalLines] at hnumbers
  exact List.map_injective_iff.mpr (fun _ _ => UInt8.toNat_inj.mp) hnumbers

namespace Machine

variable {m : Machine} {d : Deed} {n : Nat}

/-- What the next `n` steps write. -/
def written (m : Machine) (n : Nat) : List Byte :=
  m.collect (fun m => m.step.output) n

/-- The sink takes all that the next `n` steps write. -/
def SinkSuffices (m : Machine) (n : Nat) : Prop :=
  ∀ k < n, (m.stepped k).step.fault ≠ some .outputFailed

/-- A sink without a limit suffices for any number of steps. -/
theorem sinkSuffices_of_unlimited (hfree : m.sink.limit = none) (n : Nat) : m.SinkSuffices n := by
  intro k _
  exact fault_step_ne_outputFailed (limit_sink_stepped.trans hfree)

/-! ### What a step prints -/

/-- The values that the next step prints, and what it writes for them. -/
inductive Prints (m : Machine) : (values output : List Byte) → Prop where
  /-- A print instruction that succeeds prints what its register holds. -/
  | one {r : Register} {digits : List Char} (hok : m.step.fault = none)
      (hi : m.read m.pc = Instruction.prn.opcode) (hr : (m.read (m.pc + 1)).toNat = r)
      (hdigits : IsDecimal digits (m.registers.get r).toNat) :
      Prints m [m.registers.get r] (digits.map (fun c => UInt8.ofNat c.toNat) ++ [0x0A])
  /-- Nothing else prints. -/
  | none (h : m.step.fault = none → m.read m.pc ≠ Instruction.prn.opcode) : Prints m [] []

/-- A step that does not run out of room can print its deed. -/
theorem canPrint_of_ne_outputFailed (h : m.step.fault ≠ some .outputFailed)
    (hfinding : m.finding = .ok d) : m.CanPrint d := by
  by_contra hprint
  exact h (step_of_not_canPrint hfinding hprint).fault

/-- **A step prints one value or none.** -/
theorem prints_step (h : m.step.fault ≠ some .outputFailed) :
    m.Prints m.printed?.toList m.step.output := by
  cases hfinding : m.finding with
  | error fault =>
    have hyields := step_of_error hfinding
    rw [printed?_of_error hfinding, hyields.output]
    -- a step that fails is no print that succeeds
    refine .none fun hok => ?_
    cases hok.symm.trans hyields.fault
  | ok d =>
    have hyields := step_of_canPrint hfinding (canPrint_of_ne_outputFailed h hfinding)
    obtain ⟨-, i, hi, hdoes⟩ := finding_eq_ok_iff.mp hfinding
    rw [printed?_of_ok hfinding, hyields.output, Deed.line]
    cases hd : d.printed? with
    | some value =>
      obtain ⟨rfl, r, hr, rfl⟩ := hdoes.of_printed hd
      exact .one hyields.fault hi hr (Byte.isDecimal_decimal _)
    | none =>
      refine .none fun _ hprn => ?_
      -- a deed of the print instruction would print
      obtain rfl := Instruction.opcode_injective (hi.symm.trans hprn)
      cases hdoes with
      | printed => cases hd

/-- What a step writes is the line of the value that it prints. -/
theorem output_step_eq (h : m.step.fault ≠ some .outputFailed) :
    m.step.output = m.printed?.toList.flatMap Byte.decimalLine := by
  cases hfinding : m.finding with
  | error fault =>
    rw [(step_of_error hfinding).output, printed?_of_error hfinding]
    rfl
  | ok d =>
    have hprint := canPrint_of_ne_outputFailed h hfinding
    rw [(step_of_canPrint hfinding hprint).output, printed?_of_ok hfinding, Deed.line]
    cases d.printed? with
    | none => rfl
    | some value => exact (List.flatMap_singleton ..).symm

/-! ### What a sequence of steps prints -/

/-- What is written are the lines of the printed values. -/
theorem written_eq (h : m.SinkSuffices n) :
    m.written n = (m.printedValues n).flatMap Byte.decimalLine := by
  -- both sides go through the same steps, one line at a time
  rw [written, printedValues, collect, collect, List.flatMap_assoc]
  refine List.flatMap_congr fun k hk => ?_
  exact output_step_eq (h k (List.mem_range.mp hk))

/-- What is written goes into the sink, whether all of it fits or not. -/
theorem toList_sink_stepped (m : Machine) (n : Nat) :
    (m.stepped n).sink.toList = m.sink.toList ++ m.written n := by
  -- by induction on the steps; the last one adds its output on both sides
  induction n with
  | zero => exact (List.append_nil _).symm
  | succ n ih =>
    rw [toList_sink_stepped_succ, ih, written, written, collect_succ, List.append_assoc]

/-- What is written by `n` steps that do not run out of room. -/
structure WritesLines (m : Machine) (n : Nat) : Prop where
  sink : (m.stepped n).sink.toList = m.sink.toList ++ m.written n
  steps : ∀ k < n, (m.stepped k).Prints (m.stepped k).printed?.toList (m.stepped k).step.output
  written : m.written n = (m.printedValues n).flatMap Byte.decimalLine
  values : numbersOn (m.written n) = (m.printedValues n).map UInt8.toNat

/-- Steps for which the sink suffices write lines. -/
theorem SinkSuffices.writesLines (h : m.SinkSuffices n) : m.WritesLines n where
  sink := toList_sink_stepped m n
  steps k hk := prints_step (h k hk)
  written := written_eq h
  values := by
    rw [written_eq h]
    exact numbersOn_decimalLines _

/-- **The output is the list of the printed values, and they can be read back from it.** So two
machines write the same if and only if they print the same. -/
theorem output_is_lossless (h : m.SinkSuffices n) :
    m.WritesLines n ∧ ∀ (m' : Machine) (k : Nat), m'.SinkSuffices k →
      (m.written n = m'.written k ↔ m.printedValues n = m'.printedValues k) := by
  refine ⟨h.writesLines, ?_⟩
  intro m' k h'
  rw [written_eq h, written_eq h']
  constructor
  · exact decimalLines_injective
  · intro hvalues
    rw [hvalues]

/-- Two programs that print the same numbers in different orders, the second one into a sink that
has no room for more. -/
theorem output_is_lossless_two_lines :
    let m : Machine :=
      { fresh .unlimited with memory := .ofBytes [0x82, 0, 142, 0x47, 0, 0x47, 7, 0x01] }
    let m' : Machine :=
      { fresh (.limited 6) with memory := .ofBytes [0x47, 2, 0x82, 1, 142, 0x47, 1, 0x01] }
    m.SinkSuffices 6 ∧ m'.SinkSuffices 5 ∧ m.printedValues 6 = [142, 0] ∧ m.WritesLines 6 ∧
      (m.written 6 = m'.written 5 ↔ m.printedValues 6 = m'.printedValues 5) := by
  intro m m'
  have h : m.SinkSuffices 6 := sinkSuffices_of_unlimited rfl 6
  have h' : m'.SinkSuffices 5 := by
    unfold SinkSuffices
    decide +kernel
  obtain ⟨hlines, hsame⟩ := output_is_lossless h
  exact ⟨h, h', by decide +kernel, hlines, hsame m' 5 h'⟩

end Machine

end ByteMachine
