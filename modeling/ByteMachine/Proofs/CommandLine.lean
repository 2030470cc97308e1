import ByteMachine.Proofs.CommandLine.Arguments
import ByteMachine.Proofs.Listing.Transcript
import ByteMachine.Proofs.Loading

/-!
# What comes of a command line

Three things can come of what is read at the path of a program (`Loads`): it is no text, it is a
text with defects, or it is a program. In the third case the program is run, and its run ends with a
halt or with a fault.

The exit code, the report and the printed values depend on nothing else, and in particular not on
how much of the journal was asked for: a `Course` says what comes of a command line, and the answers
show more or less of the same course (`outcome_of_command_line`). Without a switch the answer shows
nothing but the printed values and the errors, and can be written out as text (`QuietAnswer`).
-/

namespace ByteMachine

/-! ### The text of a fault -/

/-- The text has no line feed. -/
def IsLine (text : String) : Prop :=
  '\n' ∉ text.toList

instance (text : String) : Decidable (IsLine text) :=
  inferInstanceAs (Decidable ('\n' ∉ text.toList))

/-- Lines are put together to a line. -/
theorem IsLine.append {s t : String} (hs : IsLine s) (ht : IsLine t) : IsLine (s ++ t) := by
  rw [IsLine, String.toList_append, List.mem_append, not_or]
  exact ⟨hs, ht⟩

theorem isLine_toString (n : Nat) : IsLine (toString n) := by
  intro hfeed
  -- a line feed is no digit
  exact absurd (isDigit_of_mem_toString hfeed) (by decide)

theorem isLine_hex (b : Byte) : IsLine b.hex := by
  intro hfeed
  -- nor is it a hexadecimal one
  exact absurd (Byte.isSome_hexDigit?_of_mem_hex hfeed) (by decide)

/-- The text of a fault is a single line. -/
theorem Fault.isLine_message (fault : Fault) : IsLine fault.message := by
  -- the messages are put together from the left, and every piece is a line
  cases fault with
  | illegalInstruction opcode pc =>
    have hopcode : IsLine ("illegal instruction `0x" ++ opcode.hex) :=
      .append (by decide) (isLine_hex opcode)
    have hpc : IsLine ("illegal instruction `0x" ++ opcode.hex ++ "` at `0x" ++ pc.hex) :=
      (hopcode.append (by decide)).append (isLine_hex pc)
    exact hpc.append (by decide)
  | invalidRegister operand pc =>
    have hoperand : IsLine ("register `" ++ operand.decimal) :=
      .append (by decide) (isLine_toString operand.toNat)
    have hpc : IsLine ("register `" ++ operand.decimal ++
        "` does not exist (instruction at `0x" ++ pc.hex) :=
      (hoperand.append (by decide)).append (isLine_hex pc)
    exact hpc.append (by decide)
  | programTooLarge size =>
    have hsize : IsLine ("program of `" ++ toString size) :=
      .append (by decide) (isLine_toString size)
    have hmemory : IsLine ("program of `" ++ toString size ++ "` bytes does not fit into `" ++
        toString Memory.size) :=
      (hsize.append (by decide)).append (isLine_toString Memory.size)
    exact hmemory.append (by decide)
  | halted => decide
  | outputFailed => decide

/-- A message of one line needs no lining up. -/
theorem reportEntry_of_isLine {message : String} (h : IsLine message) (number : Nat) :
    reportEntry message number = "   " ++ toString number ++ ": " ++ message ++ "\n" := by
  rw [reportEntry, List.splitOn_eq_singleton h]
  simp

/-! ### How a run ends -/

namespace Machine

variable {m : Machine} {fault : Fault} {o o' : Outcome} {n k : Nat}

theorem RunOfSteps.le (h : m.RunOfSteps n o) (h' : m.RunOfSteps k o') : n ≤ k := by
  by_contra hlt
  -- within `k` steps, only one of the two would have returned
  have hreturns := h.returns k
  rw [if_neg hlt, h'.returns k, if_pos (Nat.le_refl k)] at hreturns
  cases hreturns

/-- A machine has one run only. -/
theorem RunOfSteps.unique (h : m.RunOfSteps n o) (h' : m.RunOfSteps k o') : n = k ∧ o = o' := by
  obtain rfl := Nat.le_antisymm (h.le h') (h'.le h)
  have hreturns := h.returns n
  rw [h'.returns n, if_pos (Nat.le_refl n), if_pos (Nat.le_refl n)] at hreturns
  exact ⟨rfl, (Option.some.inj hreturns).symm⟩

/-- The run succeeds, and its last step executes a halt. -/
def RunHalts (m : Machine) : Prop :=
  ∃ n o, m.RunOfSteps (n + 1) o ∧ o.fault = none ∧ (m.stepped n).ExecutesHalt

/-- The run returns a fault. -/
def RunFails (m : Machine) (fault : Fault) : Prop :=
  ∃ n o, m.RunOfSteps n o ∧ o.fault = some fault

theorem RunOfSteps.runFails_iff (h : m.RunOfSteps n o) :
    m.RunFails fault ↔ o.fault = some fault := by
  constructor
  · rintro ⟨k, o', hrun, hfault⟩
    rw [(h.unique hrun).2]
    exact hfault
  · exact fun hfault => ⟨n, o, h, hfault⟩

theorem RunOfSteps.runHalts_iff (h : m.RunOfSteps n o) (hrunning : m.running)
    (hstops : m.StopsAfter n) : m.RunHalts ↔ o.fault = none := by
  constructor
  · rintro ⟨k, o', hrun, hfault, -⟩
    rw [(h.unique hrun).2]
    exact hfault
  · intro hfault
    cases n with
    | zero =>
      -- a machine that is running has not stopped before its first step
      cases hrunning.symm.trans hstops.stopped
    | succ n =>
      have hok : (m.stepped n).step.fault = none := h.fault.symm.trans hfault
      have hstopped := hstops.stopped
      -- a step that stops the machine and has not failed has executed a halt
      have hhalt : (m.stepped n).read (m.stepped n).pc = Instruction.hlt.opcode := by
        by_contra hne
        rw [stepped_succ, running_step_iff.mpr ⟨hok, hne⟩] at hstopped
        cases hstopped
      exact ⟨n, o, h, hfault, hok, hhalt⟩

/-- Where there is room for every byte, no write is the last fault. -/
theorem ne_outputFailed_of_lastFault (hfree : m.sink.limit = none)
    (h : m.lastFault n = some fault) : fault ≠ .outputFailed := by
  rintro rfl
  cases n with
  | zero => cases h
  | succ n => exact fault_step_ne_outputFailed (limit_sink_stepped.trans hfree) h

end Machine

/-- Only a failed write has a cause below it. -/
theorem Fault.chain_eq {fault : Fault} (h : fault ≠ .outputFailed) :
    fault.chain = [fault.message] := by
  cases fault with
  | outputFailed => exact absurd rfl h
  | _ => rfl

/-! ### What is read at the path -/

/-- What comes of the text at a path: the program, or why there is none. -/
inductive Loads (text : Except ReadError String) : Except LoadError (List Byte) → Prop where
  | unreadable {error : ReadError} (h : text = .error error) :
      Loads text (.error (.unreadable error))
  | malformed {t : String} {defects : List Defect} (h : text = .ok t)
      (hdefects : parseProgram t = .error defects) : Loads text (.error (.malformed defects))
  | program {t : String} {program : List Byte} (h : text = .ok t)
      (hprogram : parseProgram t = .ok program) : Loads text (.ok program)

variable {text : Except ReadError String} {result result' : Except LoadError (List Byte)}

/-- What comes of a text is what its loading finds, at whatever path it was read. -/
theorem Loads.eq (h : Loads text result) (path : String) :
    (Loading.ofText path text).program = result := by
  cases h with
  | unreadable h =>
    subst h
    rfl
  | @malformed t defects h hdefects =>
    subst h
    show (parseProgram t).mapError LoadError.malformed = _
    rw [hdefects]
    rfl
  | program h hprogram =>
    subst h
    exact program_ofText_of_ok path hprogram

theorem Loads.unique (h : Loads text result) (h' : Loads text result') : result = result' :=
  (h.eq "").symm.trans (h'.eq "")

/-- What is said about some program that was read is said about this one. -/
theorem Loads.exists_iff {program : List Byte} {P : List Byte → Prop}
    (h : Loads text (.ok program)) :
    (∃ program', Loads text (.ok program') ∧ P program') ↔ P program := by
  constructor
  · rintro ⟨program', h', hP⟩
    obtain rfl := Except.ok.inj (h.unique h')
    exact hP
  · exact fun hP => ⟨program, h, hP⟩

/-- Something comes of every text. -/
theorem exists_loads (text : Except ReadError String) : ∃ result, Loads text result := by
  cases text with
  | error error => exact ⟨_, .unreadable rfl⟩
  | ok t =>
    cases ht : parseProgram t with
    | error defects => exact ⟨_, .malformed rfl ht⟩
    | ok program => exact ⟨_, .program rfl ht⟩

/-! ### What comes of it -/

/-- What comes of a command line, however much of the journal is shown. -/
structure Course where
  code : Nat
  items : List Item
  stderr : String

namespace Course

/-- The items that are shown under a threshold. -/
def shown (c : Course) (threshold : Level) : List Item :=
  c.items.filter (Item.isShown threshold)

/-- The answer that shows the course under a threshold. -/
def answer (c : Course) (threshold : Level) : Answer where
  code := c.code
  stdout := showItems threshold c.items
  stderr := c.stderr

/-- The values among the items that are shown. -/
def printed (c : Course) (threshold : Level) : List Byte :=
  (c.shown threshold).filterMap Item.value?

end Course

namespace Session

/-- The course of a session that runs the machine for `n` steps. -/
def course (s : Session) (m : Machine) (n : Nat) : Course where
  code := (s.ending (m.lastFault n)).code
  items := s.items m n
  stderr := (s.ending (m.lastFault n)).report

variable {s : Session} {m : Machine} {n : Nat} {fault : Fault}

/-- A run ends with the code 0 or 1, and the fault decides which. -/
theorem code_course (s : Session) (m : Machine) (n : Nat) :
    (s.course m n).code ≠ 2 ∧ ((s.course m n).code = 0 ↔ m.lastFault n = none) ∧
      ((s.course m n).code = 1 ↔ ∃ fault, m.lastFault n = some fault) := by
  rw [course]
  cases m.lastFault n with
  | none =>
    refine ⟨(Nat.succ_ne_zero 1).symm, iff_of_true rfl rfl, ?_⟩
    exact iff_of_false (Nat.succ_ne_zero 0).symm fun ⟨_, h⟩ => by cases h
  | some fault =>
    refine ⟨(Nat.succ_ne_self 1).symm, ?_, iff_of_true rfl ⟨fault, rfl⟩⟩
    exact iff_of_false (Nat.succ_ne_zero 0) (Option.some_ne_none fault)

theorem stderr_course_of_none (h : m.lastFault n = none) : (s.course m n).stderr = "" := by
  rw [course, h]
  rfl

/-- The fault is reported below what the session says about it. -/
theorem stderr_course_of_some {context : String} (hcontext : s.context = [context])
    (hfree : m.sink.limit = none) (h : m.lastFault n = some fault) :
    (s.course m n).stderr =
      "Error:\n" ++ reportEntry context 0 ++ "   1: " ++ fault.message ++ "\n" := by
  have hchain : fault.chain = [fault.message] :=
    Fault.chain_eq (Machine.ne_outputFailed_of_lastFault hfree h)
  have hentry : reportEntry fault.message 1 = "   1: " ++ fault.message ++ "\n" :=
    reportEntry_of_isLine fault.isLine_message 1
  -- the context has the number 0 and the fault the number 1
  calc (s.course m n).stderr
      = report (s.context ++ fault.chain) := by
        rw [course, h]
        exact if_neg (by simp [ending, hcontext])
    _ = "Error:\n" ++ String.join [reportEntry context 0, reportEntry fault.message 1] := by
        rw [hcontext, hchain]
        rfl
    _ = "Error:\n" ++ reportEntry context 0 ++ "   1: " ++ fault.message ++ "\n" := by
        rw [hentry]
        simp only [String.join_cons, String.join_nil, String.append_empty, String.append_assoc]

/-- The values of the course are those that the run prints. -/
theorem printed_course (h : ∀ k < n, (m.stepped k).running) (hfree : m.sink.limit = none)
    (threshold : Level) : (s.course m n).printed threshold = m.printedValues n := by
  -- a threshold leaves out records only
  refine (values_filter threshold _).trans ?_
  exact values_items h hfree

end Session

namespace CommandLine

/-- The course is that of a program file at `path` in which `text` was read, with `sp` as the stack
pointer. -/
structure IsCourse (path : String) (sp : Byte) (text : Except ReadError String) (c : Course) :
    Prop where
  code_eq_two_iff : c.code = 2 ↔ ∃ error, Loads text (.error error)
  code_eq_zero_iff : c.code = 0 ↔
    ∃ program, Loads text (.ok program) ∧ (Machine.start sp program).RunHalts
  code_eq_one_iff : c.code = 1 ↔
    ∃ program, Loads text (.ok program) ∧ ∃ fault, (Machine.start sp program).RunFails fault
  /-- A program that was read fits into memory. -/
  load : ∀ program, Loads text (.ok program) →
    (((Machine.fresh .unlimited).withStackPointer sp).load program).fault = none
  unreadable : ∀ error, Loads text (.error (.unreadable error)) → c.stderr = "" ∧
    c.shown .warn = [.record
      { level := .error
        origin := .program
        text := path ++ ": " ++ ("failed to read program: " ++ error.message) }]
  /-- There is one line for every defect, and then one with their number. -/
  malformed : ∀ defects, Loads text (.error (.malformed defects)) → c.stderr = "" ∧
    c.shown .warn = defects.map (fun d => .record ⟨.error, .listing, d.message⟩) ++ [.record
      { level := .error
        origin := .program
        text := path ++ ": " ++
          ("failed to parse program (" ++ toString defects.length ++ " errors)") }]
  halted : ∀ program n o, Loads text (.ok program) → (Machine.start sp program).RunOfSteps n o →
    o.fault = none → c.stderr = "" ∧
      c.shown .warn = ((Machine.start sp program).printedValues n).map .value
  failed : ∀ program n o fault, Loads text (.ok program) →
    (Machine.start sp program).RunOfSteps n o → o.fault = some fault →
      c.stderr = "Error:\n" ++ reportEntry ("Failed to run `" ++ path ++ "`") 0 ++
        "   1: " ++ fault.message ++ "\n" ∧
      c.shown .warn = ((Machine.start sp program).printedValues n).map .value ++
        [.record ⟨.error, .machine, fault.message⟩]
  /-- Under all thresholds the same values are shown. -/
  printed : ∀ program n o, Loads text (.ok program) → (Machine.start sp program).RunOfSteps n o →
    ∀ threshold, c.printed threshold = (Machine.start sp program).printedValues n
  nothingPrinted : ∀ error, Loads text (.error error) → ∀ threshold, c.printed threshold = []

/-! #### A program that is refused -/

/-- The record of a program that cannot be loaded. -/
def refusalRecord (path : String) (error : LoadError) : Record where
  level := .error
  origin := .program
  text := path ++ ": " ++ error.message

/-- The course of a program that cannot be loaded. -/
def refusal (path : String) (text : Except ReadError String) (error : LoadError) : Course where
  code := 2
  items := ((Loading.ofText path text).records ++ [refusalRecord path error]).map .record
  stderr := ""

/-- Nothing is run after a program that is refused. -/
theorem session_of_error {error : LoadError} (i : Invocation) (h : Loads text (.error error)) :
    i.session text =
      { threshold := i.threshold
        opening := (Loading.ofText i.program text).records ++ [refusalRecord i.program error]
        machine := .error ⟨2, []⟩
        context := [] } := by
  simp only [Invocation.session, h.eq i.program]
  rfl

/-- Of the records of the loading, only those of the defects are important. -/
theorem filter_records_of_malformed {path : String} {defects : List Defect}
    (h : Loads text (.error (.malformed defects))) :
    (Loading.ofText path text).records.filter (fun r => Level.warn.shownUnder r.level) =
      defects.map Defect.record := by
  cases h with
  | malformed h hdefects =>
    subst h
    -- the first record says that the file was read, and is left out
    refine (List.filter_cons_of_neg Bool.false_ne_true).trans ?_
    exact Listing.filter_transcript_of_error rfl rfl hdefects

/-- A program that is refused has the course of a refusal. -/
theorem isCourse_refusal {path : String} {sp : Byte} {error : LoadError}
    (h : Loads text (.error error)) : IsCourse path sp text (refusal path text error) := by
  -- nothing else can have been read
  have hnot {program : List Byte} (h' : Loads text (.ok program)) : False := by
    cases h.unique h'
  constructor
  case code_eq_two_iff => exact iff_of_true rfl ⟨error, h⟩
  case code_eq_zero_iff => exact iff_of_false (Nat.succ_ne_zero 1) fun ⟨_, h', _⟩ => hnot h'
  case code_eq_one_iff => exact iff_of_false (Nat.succ_ne_self 1) fun ⟨_, h', _⟩ => hnot h'
  case load => exact fun program h' => (hnot h').elim
  case halted => exact fun program n o h' => (hnot h').elim
  case failed => exact fun program n o fault h' => (hnot h').elim
  case printed => exact fun program n o h' => (hnot h').elim
  case unreadable =>
    intro error' h'
    obtain rfl := Except.error.inj (h.unique h')
    cases h with
    | unreadable h =>
      subst h
      exact ⟨rfl, rfl⟩
  case malformed =>
    intro defects h'
    obtain rfl := Except.error.inj (h.unique h')
    refine ⟨rfl, ?_⟩
    -- the record of the refusal is an error, so it stays behind those of the defects
    show (((Loading.ofText path text).records ++ [_]).map Item.record).filter _ = _
    rw [filter_map_record, List.filter_append, filter_records_of_malformed h', List.map_append,
      List.map_map]
    rfl
  case nothingPrinted =>
    intro error' _ threshold
    exact (values_filter threshold _).trans (values_map_record _)

/-! #### A program that is run -/

section Run

variable {path t : String} {sp : Byte} {program : List Byte} {n : Nat}
  (hprogram : parseProgram t = .ok program)

include hprogram

/-- Nothing of the preparation is important if the program is read. -/
theorem filter_opening (i : Invocation) :
    (i.session (.ok t)).opening.filter (fun r => Level.warn.shownUnder r.level) = [] := by
  rw [session_of_ok i hprogram]
  -- the file was read, the lines of the listing, and the program was loaded
  show ((loadedRecord i.program :: (Listing.ofText t).transcript ++ [_]).filter _) = _
  rw [List.cons_append, List.filter_cons_of_neg Bool.false_ne_true, List.filter_append,
    Listing.filter_transcript_of_ok rfl rfl hprogram]
  rfl

/-- The values that the run prints, and its fault, are all that is shown without being asked for. -/
theorem shown_course (i : Invocation)
    (hstops : (Machine.start i.stackPointer program).StopsAfter n) :
    ((i.session (.ok t)).course (.start i.stackPointer program) n).shown .warn =
      ((Machine.start i.stackPointer program).printedValues n).map .value ++
        ((Machine.start i.stackPointer program).lastFault n).toList.map
          fun fault => .record (Entry.failed fault).record := by
  have hopening :
      ((i.session (.ok t)).opening.map Item.record).filter (Item.isShown .warn) = [] := by
    rw [filter_map_record, filter_opening hprogram i]
    rfl
  show (((i.session (.ok t)).opening.map Item.record) ++ _).filter _ = _
  rw [List.filter_append, hopening, Machine.filter_runItems hstops.running rfl, List.nil_append]

/-- A program that is read has the course of its run. -/
theorem isCourse_course (hstops : (Machine.start sp program).StopsAfter n) :
    IsCourse path sp (.ok t)
      (((Invocation.mk path sp 0).session (.ok t)).course (.start sp program) n) := by
  have hloads : Loads (.ok t) (.ok program) := .program rfl hprogram
  have hrun := hstops.runOfSteps
  have hcontext : ((Invocation.mk path sp 0).session (.ok t)).context =
      ["Failed to run `" ++ path ++ "`"] := by
    rw [session_of_ok _ hprogram]
  have hshown := shown_course hprogram ⟨path, sp, 0⟩ hstops
  have hcode := ((Invocation.mk path sp 0).session (.ok t)).code_course (.start sp program) n
  -- nothing else can have been read
  have hnot {error : LoadError} (h : Loads (.ok t) (.error error)) : False := by
    cases h.unique hloads
  have hsame {program' : List Byte} (h : Loads (.ok t) (.ok program')) : program' = program :=
    Except.ok.inj (h.unique hloads)
  constructor
  case code_eq_two_iff => exact iff_of_false hcode.1 fun ⟨_, h⟩ => hnot h
  case code_eq_zero_iff =>
    rw [hloads.exists_iff, hcode.2.1, ← hrun.fault]
    exact (hrun.runHalts_iff rfl hstops).symm
  case code_eq_one_iff =>
    rw [hloads.exists_iff, hcode.2.2, ← hrun.fault]
    exact exists_congr fun fault => hrun.runFails_iff.symm
  case load =>
    intro program' h
    obtain rfl := hsame h
    -- the reader lets no program through that is too long
    rw [Machine.load_of_le (Listing.length_le_of_parseProgram hprogram)]
    rfl
  case unreadable => exact fun error h => (hnot h).elim
  case malformed => exact fun defects h => (hnot h).elim
  case halted =>
    intro program' n' o h hrun' hok
    -- the program and its run are the ones at hand
    obtain rfl := hsame h
    obtain ⟨rfl, rfl⟩ := hrun.unique hrun'
    have hnone := hrun.fault.symm.trans hok
    rw [hshown, hnone]
    exact ⟨Session.stderr_course_of_none hnone, List.append_nil _⟩
  case failed =>
    intro program' n' o fault h hrun' hfault
    obtain rfl := hsame h
    obtain ⟨rfl, rfl⟩ := hrun.unique hrun'
    have hsome := hrun.fault.symm.trans hfault
    rw [hshown, hsome]
    exact ⟨Session.stderr_course_of_some hcontext rfl hsome, rfl⟩
  case printed =>
    intro program' n' o h hrun'
    obtain rfl := hsame h
    obtain ⟨rfl, rfl⟩ := hrun.unique hrun'
    exact Session.printed_course hstops.running rfl
  case nothingPrinted => exact fun error h => (hnot h).elim

end Run

/-! ### The answer without switches

Without a switch nothing is shown but printed values and errors. The lines on which they stand are
written out here, and the printed forms of values and records have to agree with them.
-/

/-- The line of an error at its origin. -/
theorem line_error (origin : Origin) (text : String) :
    (Record.mk .error origin text).line = "ERROR [" ++ origin.name ++ "] " ++ text := by
  -- the name of the level fills its column
  have hcolumn : String.ofList (Level.error.name.toList.rightpad 5 ' ') ++ " [" = "ERROR [" := by
    decide
  rw [Record.line, hcolumn]

/-- The answer is what is given without a switch, as text. -/
structure QuietAnswer (path : String) (sp : Byte) (text : Except ReadError String) (a : Answer) :
    Prop where
  unreadable : ∀ error, Loads text (.error (.unreadable error)) → a.stderr = "" ∧
    a.stdout = "ERROR [ls8] " ++ path ++ ": failed to read program: " ++ error.message ++ "\n"
  malformed : ∀ defects, Loads text (.error (.malformed defects)) → a.stderr = "" ∧
    a.stdout =
      String.join (defects.map fun d => "ERROR [ls8::memory::parse] " ++ d.message ++ "\n") ++
        ("ERROR [ls8] " ++ path ++ ": failed to parse program (" ++ toString defects.length ++
          " errors)\n")
  halted : ∀ program n o, Loads text (.ok program) → (Machine.start sp program).RunOfSteps n o →
    o.fault = none → a.stderr = "" ∧
      a.stdout = String.join (((Machine.start sp program).printedValues n).map
        fun v => toString v.toNat ++ "\n")
  failed : ∀ program n o fault, Loads text (.ok program) →
    (Machine.start sp program).RunOfSteps n o → o.fault = some fault →
      a.stdout = String.join (((Machine.start sp program).printedValues n).map
        fun v => toString v.toNat ++ "\n") ++ ("ERROR [ls8::machine] " ++ fault.message ++ "\n")
  /-- The report has a line for the path and below it one for the fault. -/
  report : ∀ program fault, Loads text (.ok program) →
    (Machine.start sp program).RunFails fault → IsLine path →
      a.stderr = "Error:\n   0: Failed to run `" ++ path ++ "`\n   1: " ++ fault.message ++ "\n"

/-- The items that are shown, line by line. -/
theorem stdout_answer (c : Course) (threshold : Level) :
    (c.answer threshold).stdout =
      String.join ((c.shown threshold).map fun item => item.line ++ "\n") := rfl

/-- A value stands on its line in decimal digits. -/
theorem join_lines_values (values : List Byte) :
    String.join ((values.map Item.value).map fun item => item.line ++ "\n") =
      String.join (values.map fun v => toString v.toNat ++ "\n") := by
  rw [List.map_map]
  rfl

/-- An error on its own is one line. -/
theorem join_line_error (origin : Origin) (text : String) :
    String.join ([Item.record ⟨.error, origin, text⟩].map fun item => item.line ++ "\n") =
      "ERROR [" ++ origin.name ++ "] " ++ text ++ "\n" := by
  rw [List.map_singleton, String.join_cons, String.join_nil, String.append_empty, Item.line,
    line_error]

/-- Every defect has an error line of its own. -/
theorem join_lines_defects (defects : List Defect) :
    String.join ((defects.map fun d => Item.record ⟨.error, .listing, d.message⟩).map
        fun item => item.line ++ "\n") =
      String.join (defects.map fun d => "ERROR [ls8::memory::parse] " ++ d.message ++ "\n") := by
  rw [List.map_map]
  refine congrArg String.join (List.map_congr_left fun d _ => ?_)
  exact congrArg (· ++ "\n") (line_error .listing d.message)

/-- The first line of the report of a run. -/
theorem reportEntry_path {path : String} (h : IsLine path) :
    reportEntry ("Failed to run `" ++ path ++ "`") 0 =
      "   0: Failed to run `" ++ path ++ "`\n" := by
  -- a path with a line feed would be lined up over several lines
  have hline : IsLine ("Failed to run `" ++ path ++ "`") :=
    (IsLine.append (by decide) h).append (by decide)
  rw [reportEntry_of_isLine hline]
  simp only [String.append_assoc]
  rfl

/-- The course of a program file is shown as text under the threshold that hides all but values and
errors. -/
theorem IsCourse.quietAnswer {path : String} {sp : Byte} {c : Course}
    (h : IsCourse path sp text c) : QuietAnswer path sp text (c.answer .warn) := by
  constructor
  case unreadable =>
    intro error hloads
    obtain ⟨hstderr, hshown⟩ := h.unreadable error hloads
    refine ⟨hstderr, ?_⟩
    rw [stdout_answer, hshown, join_line_error]
    -- what is left is how the pieces of the line are put together
    simp only [String.append_assoc]
    rfl
  case malformed =>
    intro defects hloads
    obtain ⟨hstderr, hshown⟩ := h.malformed defects hloads
    refine ⟨hstderr, ?_⟩
    rw [stdout_answer, hshown, List.map_append, String.join_append, join_lines_defects,
      join_line_error]
    simp only [String.append_assoc]
    rfl
  case halted =>
    intro program n o hloads hrun hok
    obtain ⟨hstderr, hshown⟩ := h.halted program n o hloads hrun hok
    refine ⟨hstderr, ?_⟩
    rw [stdout_answer, hshown, join_lines_values]
  case failed =>
    intro program n o fault hloads hrun hfault
    obtain ⟨-, hshown⟩ := h.failed program n o fault hloads hrun hfault
    rw [stdout_answer, hshown, List.map_append, String.join_append, join_lines_values,
      join_line_error]
    rfl
  case report =>
    rintro program fault hloads ⟨n, o, hrun, hfault⟩ hpath
    obtain ⟨hstderr, -⟩ := h.failed program n o fault hloads hrun hfault
    rw [Course.answer, hstderr, reportEntry_path hpath]
    simp only [String.append_assoc]
    rfl

/-! ### The outcome -/

/-- There is one course for all the command lines that name the program and the stack pointer. -/
theorem exists_course (storage : Storage) (path : String) (sp : Byte)
    (hstops : ∀ program, Loads (storage.readText path) (.ok program) →
      ∃ n, (Machine.start sp program).StopsAfter n) :
    ∃ c, IsCourse path sp (storage.readText path) c ∧
      ∀ arguments verbosity, readArguments arguments = .ok ⟨path, sp, verbosity⟩ →
        ∃ n, ∀ limit, answer? storage arguments limit =
          if n ≤ limit then some (c.answer (Invocation.mk path sp verbosity).threshold)
          else none := by
  obtain ⟨result, hloads⟩ := exists_loads (storage.readText path)
  cases result with
  | error error =>
    refine ⟨_, isCourse_refusal hloads, ?_⟩
    intro arguments verbosity harguments
    -- nothing is run, so no limit is too small
    refine ⟨0, fun limit => ?_⟩
    have hsession := session_of_error ⟨path, sp, verbosity⟩ hloads
    have hmachine : (Invocation.session ⟨path, sp, verbosity⟩ (storage.readText path)).machine =
        .error ⟨2, []⟩ := by
      rw [hsession]
    rw [answer?_of_readArguments harguments, Session.answer?_of_ending hmachine, hsession,
      if_pos (Nat.zero_le limit)]
    rfl
  | ok program =>
    obtain ⟨n, hn⟩ := hstops program hloads
    cases hloads with
    | @program t _ htext hprogram =>
      rw [htext]
      refine ⟨_, isCourse_course hprogram hn, ?_⟩
      intro arguments verbosity harguments
      refine ⟨n, fun limit => ?_⟩
      have hsession := session_of_ok ⟨path, sp, verbosity⟩ hprogram
      have hmachine : (Invocation.session ⟨path, sp, verbosity⟩ (.ok t)).machine =
          .ok (.start sp program) := by
        rw [hsession]
      have hruns := Session.runs_of_stops hmachine rfl hn
      rw [answer?_of_readArguments harguments, htext, hruns.answer, hruns.run.fault]
      -- the verbosity has no influence but on the threshold
      rw [hsession, session_of_ok ⟨path, sp, 0⟩ hprogram]
      rfl

/-- **The outcome of a command line** is determined by what is read at the path of its program and
by the stack pointer. Without a switch the screen can be given as text. -/
theorem outcome_of_command_line (storage : Storage) (path : String) (sp : Byte)
    (hstops : ∀ program, Loads (storage.readText path) (.ok program) →
      ∃ n, (Machine.start sp program).StopsAfter n) :
    ∃ c, IsCourse path sp (storage.readText path) c ∧
      (∀ arguments verbosity, readArguments arguments = .ok ⟨path, sp, verbosity⟩ →
        ∃ n, ∀ limit, answer? storage arguments limit =
          if n ≤ limit then some (c.answer (Invocation.mk path sp verbosity).threshold)
          else none) ∧
      ∃ a : Answer, a.code = c.code ∧ QuietAnswer path sp (storage.readText path) a ∧
        ∀ arguments, readArguments arguments = .ok ⟨path, sp, 0⟩ →
          ∃ n, ∀ limit, answer? storage arguments limit =
            if n ≤ limit then some a else none := by
  obtain ⟨c, hc, hanswer⟩ := exists_course storage path sp hstops
  -- without a switch the threshold is the one under which the course is shown as text
  exact ⟨c, hc, hanswer, c.answer .warn, rfl, hc.quietAnswer, fun arguments h =>
    hanswer arguments 0 h⟩

/-- A program that prints a number and runs into a byte that is no opcode, with any number of
switches on the command line and with none. -/
theorem outcome_of_command_line_fault :
    let program : List Byte := [0x82, 0, 5, 0x47, 0]
    let storage : Storage := ⟨fun _ => .ok "10000010\n0\n101\n01000111\n0\n".toUTF8⟩
    let text := storage.readText "five.ls8"
    Loads text (.ok program) ∧ (Machine.start 9 program).StopsAfter 3 ∧
      (∃ c, IsCourse "five.ls8" 9 text c ∧ c.code = 1 ∧
        c.shown .warn = [.value 5,
          .record ⟨.error, .machine, "illegal instruction `0x00` at `0x05`"⟩] ∧
        ∀ verbosity, ∃ n, ∀ limit,
          answer? storage (Invocation.mk "five.ls8" 9 verbosity).arguments limit =
            if n ≤ limit then some (c.answer (Invocation.mk "five.ls8" 9 verbosity).threshold)
            else none) ∧
      ∃ n, ∀ limit, answer? storage ["--stack-pointer", "9", "five.ls8"] limit =
        if n ≤ limit then some
          { code := 1
            stdout := "5\nERROR [ls8::machine] illegal instruction `0x00` at `0x05`\n"
            stderr := "Error:\n   0: Failed to run `five.ls8`\n" ++
              "   1: illegal instruction `0x00` at `0x05`\n" }
        else none := by
  intro program storage text
  have htext : text = .ok "10000010\n0\n101\n01000111\n0\n" := Storage.readText_of_read rfl
  have hloads : Loads text (.ok program) := .program htext (by decide +kernel)
  have hstops : (Machine.start 9 program).StopsAfter 3 := ⟨by decide +kernel, by decide +kernel⟩
  obtain ⟨c, hc, hanswer, a, hsame, hquiet, hwithout⟩ :=
    outcome_of_command_line storage "five.ls8" 9 fun program' h => by
      obtain rfl := Except.ok.inj (h.unique hloads)
      exact ⟨3, hstops⟩
  have hrun := hstops.runOfSteps
  have hfault : (Machine.start 9 program).lastFault 3 = some (.illegalInstruction 0 5) := by
    decide +kernel
  have hfails := hrun.fault.trans hfault
  have hcode : c.code = 1 := hc.code_eq_one_iff.mpr ⟨program, hloads, _, 3, _, hrun, hfails⟩
  refine ⟨hloads, hstops, ⟨c, hc, hcode, ?_, ?_⟩, ?_⟩
  · rw [(hc.failed program 3 _ _ hloads hrun hfails).2]
    decide +kernel
  · intro verbosity
    have hpath : "five.ls8" ≠ "" ∧ Token.ofArgument "five.ls8" = .plain := by decide
    exact hanswer _ verbosity (readArguments_arguments hpath.1 hpath.2)
  · obtain ⟨code, stdout, stderr⟩ := a
    have hstdout := hquiet.failed program 3 _ _ hloads hrun hfails
    have hstderr := hquiet.report program _ hloads ⟨3, _, hrun, hfails⟩ (by decide)
    obtain rfl : code = 1 := hsame.trans hcode
    obtain rfl : stdout = "5\nERROR [ls8::machine] illegal instruction `0x00` at `0x05`\n" :=
      hstdout.trans (by decide +kernel)
    obtain rfl : stderr = "Error:\n   0: Failed to run `five.ls8`\n" ++
        "   1: illegal instruction `0x00` at `0x05`\n" := hstderr.trans (by decide +kernel)
    exact hwithout ["--stack-pointer", "9", "five.ls8"] (by decide +kernel)

end CommandLine

end ByteMachine
