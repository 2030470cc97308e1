import ByteMachine.CommandLine
import ByteMachine.Demo
import ByteMachine.Proofs.Listing.Rendering
import ByteMachine.Proofs.Memory.Blocks
import ByteMachine.Proofs.Session

/-!
# Loading

A program comes into memory in three ways: it is loaded into a machine, or the memory is made from a
text, or from the file at a path. The first way refuses a program that is too long
(`Machine.loadResult`), and the other two would let it run over its own beginning. But a program
that was read from a text is never too long (`Listing.length_le_of_parseProgram`), and so all three
ways lead to the same image (`loadsAlike`).

Therefore the command line and the demonstration that reads its program start the same machine,
`Machine.start`, and their sessions go through the same steps.
-/

namespace ByteMachine

/-- The machine with which the run of a program starts. -/
def Machine.start (sp : Byte) (program : List Byte) : Machine :=
  { (fresh .unlimited).withStackPointer sp with memory := .ofBytes program }

/-! ### Loading into a machine -/

namespace Machine

variable {m : Machine} {program : List Byte}

/-- A program that fits is written from the first cell on, and its loading is entered. -/
theorem load_of_le (h : program.length ≤ 256) :
    m.load program =
      .noting { m with memory := m.memory.writeAll 0 program } (.loaded program.length) :=
  if_pos h

/-- A program that does not fit is refused. -/
theorem load_of_lt (h : 256 < program.length) :
    m.load program = .failing m (.programTooLarge program.length) :=
  if_neg (Nat.not_le.mpr h)

/-- What loading a program comes to: a program that is too long is refused, and any other one
replaces the cells that it covers. -/
structure LoadResult (m : Machine) (program : List Byte) : Prop where
  fails_iff : (m.load program).fault ≠ none ↔ 256 < program.length
  tooLarge : 256 < program.length →
    (m.load program).fault = some (.programTooLarge program.length) ∧ (m.load program).machine = m
  covered : program.length ≤ 256 → ∀ (x : Address) (hx : x.toNat < program.length),
    (m.load program).machine.read x = program[x.toNat]
  above : ∀ x : Address, program.length ≤ x.toNat → (m.load program).machine.read x = m.read x
  registers : (m.load program).machine.registers = m.registers
  pc : (m.load program).machine.pc = m.pc
  flags : (m.load program).machine.flags = m.flags
  running : (m.load program).machine.running = m.running
  sink : (m.load program).machine.sink = m.sink
  output : (m.load program).output = []

/-- **Loading is all or nothing**, whatever the memory held before. -/
theorem loadResult (m : Machine) (program : List Byte) : m.LoadResult program := by
  by_cases h : program.length ≤ 256
  · have hload := load_of_le (m := m) h
    -- the cells below the length are those of the program, the others keep their content
    have hread (x : Address) :
        (m.memory.writeAll 0 program).read x = program[x.toNat]?.getD (m.memory.read x) :=
      Memory.read_writeAll_zero m.memory h x
    constructor
    case fails_iff =>
      rw [hload]
      exact iff_of_false (fun hfault => hfault rfl) (Nat.not_lt.mpr h)
    case tooLarge => exact fun hlt => absurd h (Nat.not_le.mpr hlt)
    case covered =>
      intro _ x hx
      rw [hload]
      refine (hread x).trans ?_
      rw [List.getElem?_eq_getElem hx, Option.getD_some]
    case above =>
      intro x hx
      rw [hload]
      refine (hread x).trans ?_
      rw [List.getElem?_eq_none hx, Option.getD_none]
      rfl
    -- nothing but the memory has changed, and nothing is written
    all_goals
      rw [hload]
      rfl
  · -- a program that is too long leaves everything as it was
    have hlt := Nat.lt_of_not_le h
    have hload := load_of_lt (m := m) hlt
    constructor
    case fails_iff =>
      rw [hload]
      exact iff_of_true (Option.some_ne_none _) hlt
    case tooLarge =>
      intro _
      rw [hload]
      exact ⟨rfl, rfl⟩
    case covered => exact fun hle => absurd hle h
    -- the other parts of the machine are not even looked at
    all_goals
      intros
      rw [hload]
      rfl

end Machine

/-! ### The image of a program -/

/-- The memory holds the program from the first cell on, and zeros above. -/
structure Memory.IsImageOf (memory : Memory) (program : List Byte) : Prop where
  covered : ∀ (x : Address) (hx : x.toNat < program.length), memory.read x = program[x.toNat]
  above : ∀ x : Address, program.length ≤ x.toNat → memory.read x = 0

/-- Memory made from a program that fits is its image. -/
theorem Memory.isImageOf_ofBytes {program : List Byte} (h : program.length ≤ 256) :
    (Memory.ofBytes program).IsImageOf program where
  covered x hx := by rw [read_ofBytes h, List.getElem?_eq_getElem hx, Option.getD_some]
  above x hx := by rw [read_ofBytes h, List.getElem?_eq_none hx, Option.getD_none]

/-- A file that holds the bytes of a text is read as that text. -/
theorem Storage.readText_of_read {s : Storage} {path text : String}
    (h : s.read path = .ok text.toUTF8) : s.readText path = .ok text := by
  -- what encodes a text can be decoded again
  have hdecode : String.fromUTF8? text.toUTF8 = some text := dif_pos text.isValidUTF8
  rw [readText, h]
  show decode text.toUTF8 = _
  rw [decode, hdecode]

/-! ### The sessions of a program -/

/-- The record that a file was read. -/
def loadedRecord (path : String) : Record where
  level := .debug
  origin := .listing
  text := "Loaded `" ++ path ++ "`"

variable {storage : Storage} {text : String} {program : List Byte}

/-- Of a text that is a program nothing else is loaded. -/
theorem program_ofText_of_ok (path : String) (h : parseProgram text = .ok program) :
    (Loading.ofText path (.ok text)).program = .ok program := by
  show (parseProgram text).mapError LoadError.malformed = _
  rw [h]
  rfl

/-- **The command line loads a program that was read, and starts a machine with it.** -/
theorem CommandLine.session_of_ok (i : Invocation) (h : parseProgram text = .ok program) :
    i.session (.ok text) =
      { threshold := i.threshold
        opening := loadedRecord i.program :: (Listing.ofText text).transcript ++
          [(Entry.loaded program.length).record]
        machine := .ok (.start i.stackPointer program)
        context := ["Failed to run `" ++ i.program ++ "`"] } := by
  -- a program that was read fits, so that the machine does not refuse it
  have hload := Machine.load_of_le (m := (Machine.fresh .unlimited).withStackPointer i.stackPointer)
    (Listing.length_le_of_parseProgram h)
  simp only [Invocation.session, program_ofText_of_ok i.program h, hload]
  rfl

/-- **The demonstration starts the same machine.** -/
theorem Demo.session_parse_of_ok (hread : storage.readText programPath = .ok text)
    (h : parseProgram text = .ok program) :
    ∃ opening, Demo.parse.session storage =
      { threshold := .trace
        opening := opening
        machine := .ok (.start Machine.initialStackPointer program)
        context := [] } := by
  -- the memory is made from the text, without asking whether it fits
  have hmemory : (storage.loadProgram programPath).memory = .ok (.ofBytes program) := by
    rw [Storage.loadProgram, hread, Loading.memory, program_ofText_of_ok programPath h]
    rfl
  simp only [Demo.session, hmemory]
  exact ⟨_, rfl⟩

/-! ### All ways lead to the same image -/

/-- All ways of loading the program of a text lead to the same image, or fail with the same
defects. -/
structure LoadsAlike (text : String) : Prop where
  error_iff : ∀ defects, Memory.ofText text = .error defects ↔ parseProgram text = .error defects
  ok_iff : (∃ memory, Memory.ofText text = .ok memory) ↔ ∃ program, parseProgram text = .ok program
  length_le : ∀ program, parseProgram text = .ok program → program.length ≤ 256
  load : ∀ program, parseProgram text = .ok program → ∀ m : Machine, (m.load program).fault = none
  image : ∀ program, parseProgram text = .ok program → ∃ memory : Memory,
    memory.IsImageOf program ∧
    Memory.ofText text = .ok memory ∧
    (∀ (storage : Storage) path, storage.read path = .ok text.toUTF8 →
      (storage.loadProgram path).memory = .ok memory) ∧
    ∀ sink, ((Machine.fresh sink).load program).machine.memory = memory

/-- Whatever the text is, all ways of loading it agree. -/
theorem loadsAlike (text : String) : LoadsAlike text where
  error_iff defects := by
    rw [Memory.ofText]
    -- both sides return what the parser returns, one as memory and one as bytes
    cases parseProgram text with
    | ok program => exact iff_of_false (fun h => by cases h) (fun h => by cases h)
    | error defects' =>
      constructor
      · intro h
        obtain rfl := Except.error.inj h
        rfl
      · intro h
        obtain rfl := Except.error.inj h
        rfl
  ok_iff := by
    rw [Memory.ofText]
    cases parseProgram text with
    | ok program => exact iff_of_true ⟨_, rfl⟩ ⟨_, rfl⟩
    | error defects =>
      refine iff_of_false ?_ ?_
      · rintro ⟨memory, h⟩
        cases h
      · rintro ⟨program, h⟩
        cases h
  length_le program h := Listing.length_le_of_parseProgram h
  load program h m := by
    rw [Machine.load_of_le (Listing.length_le_of_parseProgram h)]
    rfl
  image program h := by
    have hle := Listing.length_le_of_parseProgram h
    -- the image is the memory made from the program, however it comes about
    refine ⟨.ofBytes program, Memory.isImageOf_ofBytes hle, ?_, ?_, ?_⟩
    · rw [Memory.ofText, h]
      rfl
    · intro storage path hread
      rw [Storage.loadProgram, Storage.readText_of_read hread, Loading.memory,
        program_ofText_of_ok path h]
      rfl
    · -- loading into zeros is the same as making memory
      intro sink
      rw [Machine.load_of_le hle]
      rfl

/-! ### The demonstration and the command line -/

/-- A command line that is well-formed is answered by the session that it asks for. -/
theorem CommandLine.answer?_of_readArguments {arguments : List String} {i : Invocation}
    (h : readArguments arguments = .ok i) (storage : Storage) :
    answer? storage arguments = (i.session (storage.readText i.program)).answer? := by
  funext limit
  rw [answer?, h]

open CommandLine in
/-- **All ways of loading a program agree.** -/
theorem ways_of_loading_agree :
    (∀ text, LoadsAlike text) ∧
    (∀ (m : Machine) program, m.LoadResult program) ∧
    ∀ (storage : Storage) text program n, storage.read Demo.programPath = .ok text.toUTF8 →
      parseProgram text = .ok program →
      (Machine.start Machine.initialStackPointer program).StopsAfter n →
      ∃ o, (Demo.parse.session storage).Runs (.start Machine.initialStackPointer program) n o ∧
        ∀ arguments verbosity,
          readArguments arguments = .ok ⟨Demo.programPath, Machine.initialStackPointer, verbosity⟩ →
          ∃ s : Session, answer? storage arguments = s.answer? ∧
            s.Runs (.start Machine.initialStackPointer program) n o := by
  refine ⟨loadsAlike, Machine.loadResult, ?_⟩
  intro storage text program n hread hprogram hstops
  have htext := Storage.readText_of_read hread
  obtain ⟨opening, hdemo⟩ := Demo.session_parse_of_ok htext hprogram
  -- what a session runs depends on its machine only
  have hruns {s : Session} (hm : s.machine = .ok (.start Machine.initialStackPointer program)) :=
    Session.runs_of_stops hm rfl hstops
  refine ⟨_, hruns ?_, ?_⟩
  · rw [hdemo]
  · intro arguments verbosity harguments
    refine ⟨_, answer?_of_readArguments harguments storage, hruns ?_⟩
    rw [htext, session_of_ok _ hprogram]

/-- A program that prints a number and halts, in all three ways and as it is run by the
demonstration and by the command line. -/
theorem ways_of_loading_agree_print :
    let text := "10000010\n0\n101\n01000111\n0\n1\n"
    let program : List Byte := [0x82, 0, 5, 0x47, 0, 0x01]
    let storage : Storage := ⟨fun _ => .ok text.toUTF8⟩
    let m := Machine.start Machine.initialStackPointer program
    parseProgram text = .ok program ∧ LoadsAlike text ∧
      (Machine.fresh .unlimited).LoadResult program ∧ m.printedValues 3 = [5] ∧
      ∃ o, (Demo.parse.session storage).Runs m 3 o ∧ ∃ s : Session,
        CommandLine.answer? storage ["-v", Demo.programPath] = s.answer? ∧ s.Runs m 3 o := by
  intro text program storage m
  obtain ⟨hways, hload, hruns⟩ := ways_of_loading_agree
  have hprogram : parseProgram text = .ok program := by decide +kernel
  have hstops : m.StopsAfter 3 := ⟨by decide +kernel, by decide +kernel⟩
  have harguments : CommandLine.readArguments ["-v", Demo.programPath] =
      .ok ⟨Demo.programPath, Machine.initialStackPointer, 1⟩ := by decide +kernel
  obtain ⟨o, hdemo, hline⟩ := hruns storage text program 3 rfl hprogram hstops
  exact ⟨hprogram, hways text, hload _ program, by decide +kernel, o, hdemo,
    hline _ 1 harguments⟩

end ByteMachine
