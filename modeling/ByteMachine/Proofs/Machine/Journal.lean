import ByteMachine.Proofs.Machine.Iteration
import ByteMachine.Proofs.Machine.Printing
import ByteMachine.Proofs.Machine.Table
import ByteMachine.Proofs.Text.Words

/-!
# What a run enters into the journal

Every step of a running machine enters two records: a look at the machine in front of the step, and
then either the deed or the fault (`Machine.StepRecords`). The deed is entered when all that could
go wrong has been checked, and that includes the printing; a step that finds the sink full enters
its fault in place of the deed. A machine that has stopped enters nothing.

A run enters what its steps enter, and the note of its end if it does not fail. As only its last
step can fail, a fault is the last that is heard of it.

The text of a look consists of words, and all those that stand for bytes are part of what is shown
(`Snapshot.bytes_text`). There are always as many of them, so the look can be put together again
(`Snapshot.ofText?_text`), and whoever has the journal of a run has the program counter, the fetched
bytes and the registers in front of each step.
-/

namespace ByteMachine

/-! ### Reading a look -/

namespace Snapshot

/-- All that a snapshot shows, in the order in which it is printed. -/
def toList (s : Snapshot) : List Byte :=
  [s.pc, s.opcode, s.first, s.second] ++ s.registers.toList

/-- The snapshot that shows the given bytes. -/
def ofList? : List Byte → Option Snapshot
  | pc :: opcode :: first :: second :: values =>
    if h : values.toArray.size = 8 then some ⟨pc, opcode, first, second, ⟨⟨values.toArray, h⟩⟩⟩
    else none
  | _ => none

/-- The snapshot that a text shows: the bytes among its words, one after the other. -/
def ofText? (text : String) : Option Snapshot :=
  ofList? ((Text.words text.toList).filterMap Byte.ofHex?)

/-- Eight registers are shown, so their values are a bank again. -/
theorem ofList?_toList (s : Snapshot) : ofList? s.toList = some s := by
  obtain ⟨pc, opcode, first, second, ⟨values⟩⟩ := s
  have hsize : values.toList.toArray.size = 8 := by simp
  show (if h : values.toList.toArray.size = 8 then
    some (⟨pc, opcode, first, second, ⟨⟨values.toList.toArray, h⟩⟩⟩ : Snapshot) else none) = _
  rw [dif_pos hsize]
  rfl

/-- Of the words of a look, only the title and the two bars stand for no byte. -/
theorem bytes_text (s : Snapshot) :
    (Text.words s.text.toList).filterMap Byte.ofHex? = s.toList := by
  have htext : s.text.toList = "TRACE:".toList ++ ' ' :: (s.pc.hex.toList ++ ' ' :: ("|".toList ++
      ' ' :: ((" ".intercalate ([s.opcode, s.first, s.second].map Byte.hex)).toList ++ ' ' ::
        ("|".toList ++ ' ' :: (" ".intercalate (s.registers.toList.map Byte.hex)).toList)))) := by
    simp [text]
  have htitle : (Text.words "TRACE:".toList).filterMap Byte.ofHex? = [] := by decide
  have hbar : (Text.words "|".toList).filterMap Byte.ofHex? = [] := by decide
  -- the blanks cut the text into its words, which are read one by one
  rw [htext]
  simp only [Text.words_append_blank, List.filterMap_append, htitle, hbar,
    Byte.filterMap_ofHex?_words, Text.words_of_not_mem s.pc.blank_not_mem_hex]
  rw [List.filterMap_cons_some s.pc.ofHex?_hex]
  rfl

/-- **The text of a look shows all of it.** -/
theorem ofText?_text (s : Snapshot) : ofText? s.text = some s := by
  rw [ofText?, bytes_text, ofList?_toList]

/-- Looks with the same text show the same. -/
theorem text_injective {s t : Snapshot} (h : s.text = t.text) : s = t := by
  have hread : ofText? s.text = ofText? t.text := congrArg ofText? h
  rw [ofText?_text, ofText?_text] at hread
  exact Option.some.inj hread

end Snapshot

/-- The snapshot that a record shows. -/
def Record.snapshot? (r : Record) : Option Snapshot :=
  if r.level = .trace then Snapshot.ofText? r.text else none

/-! ### Naming an instruction -/

/-- A mnemonic is a single word. -/
theorem Instruction.blank_not_mem_name (i : Instruction) : ' ' ∉ i.name.toList := by
  cases i <;> decide

namespace Deed

/-- Whatever is said behind the mnemonic, a blank stands between. -/
theorem exists_details (d : Deed) :
    d.text.toList = d.instruction.name.toList ∨
      ∃ details, d.text.toList = d.instruction.name.toList ++ ' ' :: details := by
  -- a halt has nothing to say about itself but its name
  cases d with
  | halted => exact .inl rfl
  | returned | printed | pushed | popped | called | jumped | branched =>
    right
    simp [text]
  | assigned | added | multiplied | compared =>
    right
    simp [text]

/-- What the journal says about a deed starts with the name of the instruction. -/
theorem head?_words_text (d : Deed) :
    (Text.words d.text.toList).head? = some d.instruction.name.toList := by
  have hname := d.instruction.blank_not_mem_name
  obtain htext | ⟨details, htext⟩ := d.exists_details
  · rw [htext, Text.words_of_not_mem hname]
    rfl
  · rw [htext, Text.head?_words hname]

end Deed

namespace Machine

variable {m : Machine} {d : Deed} {fault : Fault} {r : Record} {records : List Record}
  {o : Outcome} {n : Nat}

/-! ### The records of a step -/

/-- What a step of a running machine enters into the journal. -/
inductive StepRecords (m : Machine) : List Record → Prop where
  /-- The text of the second record starts with the name of the instruction, and no two instructions
  share their name (`Instruction.name_injective`). -/
  | succeeded {i : Instruction} {text : String} (hok : m.step.fault = none)
      (hi : m.read m.pc = i.opcode) (hname : (Text.words text.toList).head? = some i.name.toList) :
      StepRecords m [⟨.trace, .machine, m.snapshot.text⟩, ⟨.debug, .machine, text⟩]
  | failed {fault : Fault} (hfault : m.step.fault = some fault) :
      StepRecords m [⟨.trace, .machine, m.snapshot.text⟩, ⟨.error, .machine, fault.message⟩]

/-- If everything can be printed, the deed is entered. -/
theorem records_step_of_canPrint (h : m.finding = .ok d) (hprint : m.CanPrint d) :
    m.step.records = [(Entry.fetched m.snapshot).record, (Entry.did d).record] := by
  rw [Outcome.records, Outcome.entries, events_step_of_canPrint h hprint]
  -- what is printed is not entered
  cases m.printed? with
  | none => rfl
  | some value => rfl

/-- A step that fails enters its fault in place of the deed. -/
theorem records_step_of_fault (hrunning : m.running) (h : m.step.fault = some fault) :
    m.step.records = [(Entry.fetched m.snapshot).record, (Entry.failed fault).record] := by
  rw [Outcome.records, Outcome.entries]
  -- the fault was found in front of the deed, or the sink was full
  obtain hfinding | ⟨rfl, d, hfinding, hprint⟩ := finding_of_fault h
  · rw [events_step_of_error hrunning hfinding]
    rfl
  · rw [events_step_of_not_canPrint hfinding hprint]
    rfl

/-- A machine that has stopped enters nothing. -/
theorem records_step_of_not_running (h : m.running = false) : m.step.records = [] := by
  rw [step_of_not_running h]
  rfl

/-- **A step whose record names an instruction has read the opcode of that instruction.** -/
theorem StepRecords.read_of_name {look : Record} {text : String} {i : Instruction}
    (h : m.StepRecords [look, ⟨.debug, .machine, text⟩])
    (hname : (Text.words text.toList).head? = some i.name.toList) : m.read m.pc = i.opcode := by
  cases h with
  | @succeeded j _ _ hj hname' =>
    have hsame : j.name.toList = i.name.toList := Option.some.inj (hname'.symm.trans hname)
    -- no two instructions share their name
    obtain rfl := Instruction.name_injective (String.toList_injective hsame)
    exact hj

/-- **Every step of a running machine enters a look and what came of it.** -/
theorem stepRecords_step (hrunning : m.running) : m.StepRecords m.step.records := by
  cases hfault : m.step.fault with
  | some fault =>
    rw [records_step_of_fault hrunning hfault]
    exact .failed hfault
  | none =>
    obtain ⟨d, hfinding, hprint⟩ := finding_of_ok hfault
    obtain ⟨-, i, hi, hdoes⟩ := finding_eq_ok_iff.mp hfinding
    have hname := d.head?_words_text
    rw [hdoes.instruction_eq] at hname
    rw [records_step_of_canPrint hfinding hprint]
    exact .succeeded hfault hi hname

/-- One look is entered in a step, and it shows the machine in front of the step. -/
theorem StepRecords.snapshot (h : m.StepRecords records) :
    records.filterMap Record.snapshot? = [m.snapshot] := by
  -- the second record is at another level, so it is no look
  have hlook : Record.snapshot? ⟨.trace, .machine, m.snapshot.text⟩ = some m.snapshot :=
    (if_pos rfl).trans m.snapshot.ofText?_text
  cases h with
  | succeeded =>
    rw [List.filterMap_cons_some hlook]
    rfl
  | failed =>
    rw [List.filterMap_cons_some hlook]
    rfl

/-- A step that succeeds enters no error. -/
theorem StepRecords.ne_error (h : m.StepRecords records) (hok : m.step.fault = none)
    (hr : r ∈ records) : r.level ≠ .error := by
  cases h with
  | failed hfault => cases hok.symm.trans hfault
  | succeeded =>
    obtain rfl | hr := List.mem_cons.mp hr
    · show Level.trace ≠ .error
      decide
    · obtain rfl := List.mem_singleton.mp hr
      show Level.debug ≠ .error
      decide

/-! ### The records of a run -/

/-- The machine in front of each of the next `n` steps, as a look at it shows it. -/
def snapshots (m : Machine) (n : Nat) : List Snapshot :=
  m.collect (fun m => [m.snapshot]) n

/-- The looks of several steps are read back in their order. -/
theorem snapshot_collect_records (h : ∀ k < n, (m.stepped k).running) :
    (m.collect (fun m => m.step.records) n).filterMap Record.snapshot? = m.snapshots n := by
  -- by induction on the steps, the last one being looked at by itself
  induction n with
  | zero => rfl
  | succ n ih =>
    have hlast := stepRecords_step (h n (Nat.lt_succ_self n))
    rw [collect_succ, List.filterMap_append, ih fun k hk => h k (Nat.lt_succ_of_lt hk),
      hlast.snapshot, snapshots, snapshots, collect_succ]

/-- Steps that leave the machine running enter no error. -/
theorem ne_error_of_mem_collect (h : ∀ k < n, (m.stepped k).running) (hok : m.lastFault n = none)
    (hr : r ∈ m.collect (fun m => m.step.records) n) : r.level ≠ .error := by
  obtain ⟨k, hk, hmem⟩ := List.mem_flatMap.mp hr
  rw [List.mem_range] at hk
  refine (stepRecords_step (h k hk)).ne_error ?_ hmem
  -- the step has succeeded, whether it is the last one or not
  obtain heq | hlt := Nat.eq_or_lt_of_le (Nat.succ_le_of_lt hk)
  · rw [← heq] at hok
    exact hok
  · exact lastFault_of_running (h (k + 1) hlt)

/-- Nothing in front of the last record of a run is an error. -/
theorem exists_records_eq (h : ∀ k < n, (m.stepped k).running) (hrun : m.RunOfSteps n o) :
    ∃ front last, o.records = front ++ [last] ∧ ∀ r ∈ front, r.level ≠ .error := by
  have hlog := hrun.log
  cases hfault : m.lastFault n with
  | none =>
    -- all steps have succeeded, and the note of the end is the last record
    rw [hfault, if_pos rfl] at hlog
    exact ⟨_, _, hlog, fun r hr => ne_error_of_mem_collect h hfault hr⟩
  | some fault =>
    cases n with
    | zero => cases hfault
    | succ n =>
      have hlast := h n (Nat.lt_succ_self n)
      have hbefore : ∀ k < n, (m.stepped k).running := fun k hk => h k (Nat.lt_succ_of_lt hk)
      -- the look at the machine in front of the last step is no error either
      rw [hfault, if_neg (by simp), List.append_nil, collect_succ,
        records_step_of_fault hlast hfault] at hlog
      refine ⟨m.collect (fun m => m.step.records) n ++
        [(Entry.fetched (m.stepped n).snapshot).record], _, hlog.trans (List.append_cons ..), ?_⟩
      intro r hr
      obtain hr | hr := List.mem_append.mp hr
      · exact ne_error_of_mem_collect hbefore (lastFault_of_running hlast) hr
      · obtain rfl := List.mem_singleton.mp hr
        show Level.trace ≠ .error
        decide

/-- The journal of a run of `n` steps with the outcome `o`. -/
structure IsTranscript (m : Machine) (n : Nat) (o : Outcome) : Prop where
  records : o.records = m.collect (fun m => m.step.records) n ++
    if o.fault = none then [⟨.info, .machine, "Program halted at 0x" ++ o.machine.pc.hex⟩] else []
  steps : ∀ k < n, (m.stepped k).StepRecords (m.stepped k).step.records
  error_last : ∀ before r after, o.records = before ++ r :: after → r.level = .error → after = []
  /-- The looks can be read back, and then they show the machine in front of every step. -/
  snapshots : o.records.filterMap Record.snapshot? = m.snapshots n

/-- The journal of a run that stops is a transcript of it. -/
theorem StopsAfter.isTranscript (h : m.StopsAfter n) (hrun : m.RunOfSteps n o) :
    m.IsTranscript n o := by
  have hrecords : o.records = m.collect (fun m => m.step.records) n ++
      if o.fault = none then [⟨.info, .machine, "Program halted at 0x" ++ o.machine.pc.hex⟩]
      else [] := by
    rw [hrun.log, hrun.fault, hrun.machine]
  refine ⟨hrecords, fun k hk => stepRecords_step (h.running k hk), ?error_last, ?snapshots⟩
  case error_last =>
    intro before r after hsplit herror
    obtain ⟨front, last, hfront, hne⟩ := exists_records_eq h.running hrun
    obtain rfl | ⟨init, final, rfl⟩ := List.eq_nil_or_concat' after
    · rfl
    · -- with something behind it, the error would not be the last record
      rw [hfront, ← List.cons_append, ← List.append_assoc] at hsplit
      obtain ⟨rfl, -⟩ := List.append_inj' hsplit rfl
      exact absurd herror (hne r (List.mem_append_right _ List.mem_cons_self))
  case snapshots =>
    -- the note of the end is no look
    rw [hrecords, List.filterMap_append, snapshot_collect_records h.running]
    split
    · exact List.append_nil _
    · exact List.append_nil _

/-- A machine that has stopped did so after some number of steps. -/
theorem exists_stopsAfter (h : (m.stepped n).running = false) : ∃ k ≤ n, m.StopsAfter k := by
  -- the first time at which the machine is not running
  have hstop : ∃ k, (m.stepped k).running = false := ⟨n, h⟩
  refine ⟨Nat.find hstop, Nat.find_min' hstop h, ?_, Nat.find_spec hstop⟩
  intro k hk
  have hnot := Nat.find_min hstop hk
  rwa [Bool.not_eq_false] at hnot

/-- Two looks have the same text exactly if they show the same. -/
theorem text_snapshot_eq_iff (m m' : Machine) : m.snapshot.text = m'.snapshot.text ↔
    m.pc = m'.pc ∧ m.read m.pc = m'.read m'.pc ∧ m.read (m.pc + 1) = m'.read (m'.pc + 1) ∧
      m.read (m.pc + 2) = m'.read (m'.pc + 2) ∧
        ∀ r, m.registers.get r = m'.registers.get r := by
  constructor
  · intro htext
    obtain ⟨hpc, hopcode, hfirst, hsecond, hregisters⟩ :=
      Snapshot.mk.inj (Snapshot.text_injective htext)
    exact ⟨hpc, hopcode, hfirst, hsecond, fun r => congrArg (·.get r) hregisters⟩
  · rintro ⟨hpc, hopcode, hfirst, hsecond, hregisters⟩
    have hsnapshot : m.snapshot = m'.snapshot := by
      rw [snapshot, snapshot, hopcode, hfirst, hsecond, hpc, Registers.ext_get hregisters]
    rw [hsnapshot]

/-- **The journal of a run is an exact transcript of it.** -/
theorem journal_is_exact :
    (∀ (m : Machine) (n : Nat), (m.stepped n).running = false →
      ∃ k ≤ n, m.StopsAfter k ∧ ∃ o, m.RunOfSteps k o ∧ m.IsTranscript k o) ∧
    (∀ m : Machine, m.running = false → m.step.records = []) ∧
    ∀ m m' : Machine, m.snapshot.text = m'.snapshot.text ↔
      m.pc = m'.pc ∧ m.read m.pc = m'.read m'.pc ∧ m.read (m.pc + 1) = m'.read (m'.pc + 1) ∧
        m.read (m.pc + 2) = m'.read (m'.pc + 2) ∧
          ∀ r, m.registers.get r = m'.registers.get r := by
  refine ⟨?_, fun m => records_step_of_not_running, text_snapshot_eq_iff⟩
  intro m n hstop
  obtain ⟨k, hk, hstops⟩ := exists_stopsAfter hstop
  exact ⟨k, hk, hstops, _, hstops.runOfSteps, hstops.isTranscript hstops.runOfSteps⟩

/-- A run that fails since its sink has room for the first digit only. -/
theorem journal_is_exact_full_sink :
    let m : Machine :=
      { fresh (.limited 1) with memory := .ofBytes [0x82, 0, 42, 0x47, 0, 0x01] }
    (m.stepped 5).running = false ∧
      ∃ k ≤ 5, m.StopsAfter k ∧ ∃ o, m.RunOfSteps k o ∧ m.IsTranscript k o := by
  intro m
  have hstop : (m.stepped 5).running = false := by decide +kernel
  exact ⟨hstop, journal_is_exact.1 m 5 hstop⟩

end Machine

end ByteMachine
