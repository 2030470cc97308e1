import ByteMachine.Listing
import ByteMachine.Proofs.Listing.Line
import ByteMachine.Proofs.Text.Lines
import Mathlib.Data.List.Forall2
import Mathlib.Data.List.Induction

/-!
# What reading a listing finds

The reader goes through the lines once and carries four things that depend on each other: the line
number, the bytes that fit into memory, the number of all bytes, and the line at which they ceased
to fit. This module computes what it finds from the list of lines alone.

* `bytes` are the values of the byte lines, whether they fit or not.
* `lineDefects` has one defect for every malformed line, with the number of that line.
* `IsOverflow` singles out the line with the 257th byte, which is the one that has exactly 256 byte
  lines in front of it.

`Reader.Behind` ties the reader to the lines it has read. It holds of a reader in front of the first
line and is kept by every further line (`Reader.Behind.readLine`); the only line at which the four
counts interact is a byte line, where the reader has to tell from the bytes it kept and from its
overflow line how many bytes there were.

`parseProgram_grammar` puts this together with the grammar of lines: which texts denote a program,
which one, and what is reported about all others.
-/

namespace ByteMachine.Listing

/-- The byte on a line. -/
def Line.byte? : Line → Option Byte
  | byte value => some value
  | _ => none

/-- The defect of a line with the given number. -/
def Line.defect? (number : Nat) : Line → Option Defect
  | malformed text => some ⟨number, .malformed text⟩
  | _ => none

/-- The bytes of a listing in order, whether they fit into memory or not. -/
def bytes (lines : List Line) : List Byte :=
  lines.filterMap Line.byte?

/-- The defects of the single lines in order. Lines are counted from one. -/
def lineDefects (lines : List Line) : List Defect :=
  (lines.zipIdx 1).filterMap fun (line, number) => line.defect? number

/-- `number` is the number of the line with the first byte that does not fit into memory. -/
def IsOverflow (lines : List Line) (number : Nat) : Prop :=
  ∃ before value after, lines = before ++ .byte value :: after ∧
    (bytes before).length = 256 ∧ number = before.length + 1

/-- The lines make up a program: none is malformed, and their bytes fit into memory. -/
def IsValid (lines : List Line) : Prop :=
  (∀ text, Line.malformed text ∉ lines) ∧ (bytes lines).length ≤ 256

/-- What is reported about the size of a listing: nothing if the bytes fit into memory, and
otherwise one defect at the line of the first byte that does not. -/
inductive SizeDefects (lines : List Line) : List Defect → Prop where
  | fits (h : (bytes lines).length ≤ 256) : SizeDefects lines []
  | tooLarge {number : Nat} (h : 256 < (bytes lines).length) (hnumber : IsOverflow lines number) :
      SizeDefects lines [⟨number, .tooLarge (bytes lines).length⟩]

/-! ### One more line -/

/-- The bytes of two parts stand one behind the other. -/
theorem bytes_append (before after : List Line) :
    bytes (before ++ after) = bytes before ++ bytes after :=
  List.filterMap_append ..

/-- There is no byte on a blank line. -/
@[simp] theorem bytes_blank : bytes [.blank] = [] := rfl

/-- There is one byte on a byte line. -/
@[simp] theorem bytes_byte (value : Byte) : bytes [.byte value] = [value] := rfl

/-- There is no byte on a malformed line. -/
@[simp] theorem bytes_malformed (text : String) : bytes [.malformed text] = [] := rfl

/-- A line that is added has its defect behind all others. -/
theorem lineDefects_concat (lines : List Line) (l : Line) :
    lineDefects (lines ++ [l]) = lineDefects lines ++ (l.defect? (lines.length + 1)).toList := by
  rw [lineDefects, List.zipIdx_append, List.filterMap_append, Nat.add_comm 1 lines.length]
  cases l <;> rfl

/-- The overflow line is one of the lines so far, or it is the new one. -/
theorem isOverflow_concat_iff {lines : List Line} {l : Line} {number : Nat} :
    IsOverflow (lines ++ [l]) number ↔ IsOverflow lines number ∨
      l.byte?.isSome ∧ (bytes lines).length = 256 ∧ number = lines.length + 1 := by
  refine ⟨?_, ?_⟩
  · rintro ⟨before, value, after, hlines, hbefore, hnumber⟩
    rcases List.eq_nil_or_concat' after with rfl | ⟨after, last, rfl⟩
    · -- the line found is the new one
      obtain ⟨rfl, hl⟩ := List.append_inj' hlines rfl
      obtain rfl := List.singleton_inj.mp hl
      exact .inr ⟨rfl, hbefore, hnumber⟩
    · -- the line found was there before
      rw [← List.cons_append, ← List.append_assoc] at hlines
      obtain ⟨rfl, -⟩ := List.append_inj' hlines rfl
      exact .inl ⟨before, value, after, rfl, hbefore, hnumber⟩
  · -- a line that was found stays where it is
    rintro (⟨before, value, after, rfl, hbefore, hnumber⟩ | ⟨hl, hlines, hnumber⟩)
    · exact ⟨before, value, after ++ [l], by simp, hbefore, hnumber⟩
    · -- the new line is found if it is the one with the 257th byte
      cases l with
      | byte value => exact ⟨lines, value, [], rfl, hlines, hnumber⟩
      | blank => cases hl
      | malformed text => cases hl

/-- A byte fails to fit exactly if there are more than 256 of them. -/
theorem exists_isOverflow_iff {lines : List Line} :
    (∃ number, IsOverflow lines number) ↔ 256 < (bytes lines).length := by
  -- by induction on the lines, the last one being added to those in front
  induction lines using List.reverseRecOn with
  | nil =>
    refine ⟨?_, fun h => absurd h (by decide)⟩
    -- there is nothing before the first line
    rintro ⟨number, before, value, after, hlines, -⟩
    exact absurd hlines.symm (by simp)
  | append_singleton lines l ih =>
    -- only a byte makes a difference to the number of bytes
    simp only [isOverflow_concat_iff, exists_or, ih, bytes_append, List.length_append]
    cases l with
    | byte value =>
      simp only [Line.byte?, Option.isSome_some, true_and, exists_and_left, exists_eq, and_true,
        bytes_byte, List.length_singleton]
      omega
    | blank => simp [Line.byte?]
    | malformed text => simp [Line.byte?]

/-- No line has a defect exactly if none is malformed. -/
theorem lineDefects_eq_nil_iff {lines : List Line} :
    lineDefects lines = [] ↔ ∀ text, Line.malformed text ∉ lines := by
  -- by induction on the lines again; only a malformed line adds a defect
  induction lines using List.reverseRecOn with
  | nil => simp [lineDefects]
  | append_singleton lines l ih =>
    rw [lineDefects_concat, List.append_eq_nil_iff, ih]
    cases l with
    | malformed text =>
      refine ⟨fun h => absurd h.2 (by simp [Line.defect?]), fun h => absurd ?_ (h text)⟩
      exact List.mem_append_right _ (List.mem_singleton_self _)
    | blank => simp [Line.defect?]
    | byte value => simp [Line.defect?]

/-- Only malformed lines have defects of their own. -/
theorem exists_malformed_of_mem_lineDefects {lines : List Line} {d : Defect}
    (h : d ∈ lineDefects lines) : ∃ text, d.cause = .malformed text := by
  -- a defect belongs to one of the lines, and only one kind of line has any
  obtain ⟨⟨l, number⟩, -, hdefect⟩ := List.mem_filterMap.mp h
  cases l with
  | malformed text =>
    obtain rfl := Option.some.inj hdefect
    exact ⟨text, rfl⟩
  | blank | byte => cases hdefect

/-! ### The invariant of the reader -/

/-- The reader has read `lines` and nothing else. -/
structure Reader.Behind (r : Reader) (lines : List Line) : Prop where
  line_eq : r.line = lines.length
  program_eq : r.program.toList = (bytes lines).take 256
  size_eq : r.size = (bytes lines).length
  /-- The overflow line is found as soon as the 257th byte is read, and never replaced. -/
  overflow_iff : ∀ number, r.overflow? = some number ↔ IsOverflow lines number
  defects_eq : r.defects.toList = lineDefects lines

/-- In front of the first line nothing has been read. -/
theorem Reader.Behind.start : Reader.start.Behind [] where
  line_eq := rfl
  program_eq := rfl
  size_eq := rfl
  overflow_iff number := by
    refine ⟨fun h => absurd h (by simp [Reader.start]), ?_⟩
    rintro ⟨before, value, after, hlines, -⟩
    exact absurd hlines.symm (by simp)
  defects_eq := rfl

namespace Reader

section Store

variable (r : Reader) (value : Byte)

/-- A byte that is stored is counted. If there is room it is kept, and if not, its line is
remembered unless there is such a line already. -/
theorem store_eq : r.store value =
    { r with
      size := r.size + 1
      program := if r.program.size < 256 then r.program.push value else r.program
      overflow? := if r.program.size < 256 then r.overflow?
        else if r.overflow?.isNone then some r.line else r.overflow? } := by
  unfold store
  simp only [Memory.size]
  -- each case changes one part of the reader and leaves the other one as it is
  split
  · rfl
  · split <;> rfl

@[simp] theorem store_line : (r.store value).line = r.line := by rw [store_eq]

@[simp] theorem store_size : (r.store value).size = r.size + 1 := by rw [store_eq]

@[simp] theorem store_defects : (r.store value).defects = r.defects := by rw [store_eq]

theorem store_program : (r.store value).program =
    if r.program.size < 256 then r.program.push value else r.program := by rw [store_eq]

theorem store_overflow? : (r.store value).overflow? =
    if r.program.size < 256 then r.overflow?
    else if r.overflow?.isNone then some r.line else r.overflow? := by rw [store_eq]

end Store

/-- A byte line keeps the invariant. -/
theorem Behind.readByte {r : Reader} {lines : List Line} (h : r.Behind lines) (value : Byte) :
    (r.readLine (.byte value)).Behind (lines ++ [.byte value]) := by
  have hsize : r.program.size = min 256 (bytes lines).length := by
    rw [← Array.length_toList, h.program_eq, List.length_take]
  -- only the bytes and the overflow line ask how full the memory is
  refine ⟨?_, ?_, ?_, fun number => ?_, ?_⟩
  · simp [readLine, note, h.line_eq]
  · show ((note { r with line := r.line + 1 } value).store value).program.toList = _
    rw [store_program, bytes_append, bytes_byte]
    show (if r.program.size < 256 then r.program.push value else r.program).toList = _
    split
    · next hlt =>
      -- so far everything fitted, and this byte does too
      rw [Array.toList_push, h.program_eq, List.take_of_length_le (by omega),
        List.take_of_length_le (by rw [List.length_append, List.length_singleton]; omega)]
    · -- the memory was full already, so nothing is added
      next hge => rw [h.program_eq, List.take_append_of_le_length (by omega)]
  · simp [readLine, note, h.size_eq, bytes_append]
  · show ((note { r with line := r.line + 1 } value).store value).overflow? = some number ↔ _
    rw [store_overflow?, isOverflow_concat_iff, ← h.overflow_iff]
    show (if r.program.size < 256 then r.overflow?
      else if r.overflow?.isNone then some (r.line + 1) else r.overflow?) = some number ↔ _
    -- an overflow line is known exactly if there were more than 256 bytes in front
    have hknown : r.overflow?.isNone ↔ (bytes lines).length ≤ 256 := by
      rw [← not_lt, ← exists_isOverflow_iff, Option.isNone_iff_eq_none,
        Option.eq_none_iff_forall_ne_some, not_exists]
      exact forall_congr' fun number => not_congr (h.overflow_iff number)
    simp only [Line.byte?, Option.isSome_some, true_and, h.line_eq, hknown, hsize]
    -- with fewer bytes than 256, with exactly as many and with more the reader goes on differently
    by_cases hlt : (bytes lines).length < 256
    · rw [if_pos (by omega)]
      refine ⟨.inl, ?_⟩
      rintro (hnumber | ⟨heq, -⟩)
      · exact hnumber
      · omega
    · rw [if_neg (by omega)]
      by_cases heq : (bytes lines).length = 256
      · -- this is the first byte that does not fit
        have hnone : r.overflow? = none := Option.isNone_iff_eq_none.mp (hknown.mpr heq.le)
        rw [if_pos heq.le, hnone, Option.some.injEq]
        exact ⟨fun hn => .inr ⟨heq, hn.symm⟩, fun hn => (hn.resolve_left (by simp)).2.symm⟩
      · rw [if_neg (by omega)]
        -- the line was found before and is kept
        exact ⟨.inl, fun hn => hn.resolve_right fun hr => heq hr.1⟩
  · simp [readLine, note, h.defects_eq, lineDefects_concat, Line.defect?]

/-- **Every line keeps the invariant.** -/
theorem Behind.readLine {r : Reader} {lines : List Line} (h : r.Behind lines) (l : Line) :
    (r.readLine l).Behind (lines ++ [l]) := by
  cases l with
  | byte value => exact h.readByte value
  | blank =>
    -- a line without a byte changes neither the program nor the overflow line
    refine ⟨?_, ?_, ?_, fun number => ?_, ?_⟩
    · simp [Reader.readLine, h.line_eq]
    · rw [bytes_append, bytes_blank, List.append_nil]
      exact h.program_eq
    · rw [bytes_append, bytes_blank, List.append_nil]
      exact h.size_eq
    · rw [isOverflow_concat_iff, ← h.overflow_iff]
      simp [Reader.readLine, Line.byte?]
    · rw [lineDefects_concat]
      simp [Reader.readLine, Line.defect?, h.defects_eq]
  | malformed text =>
    refine ⟨?_, ?_, ?_, fun number => ?_, ?_⟩
    · simp [Reader.readLine, report, h.line_eq]
    · rw [bytes_append, bytes_malformed, List.append_nil]
      exact h.program_eq
    · rw [bytes_append, bytes_malformed, List.append_nil]
      exact h.size_eq
    · rw [isOverflow_concat_iff, ← h.overflow_iff]
      simp [Reader.readLine, report, Line.byte?]
    · simp [Reader.readLine, report, h.defects_eq, h.line_eq, lineDefects_concat, Line.defect?]

/-- A reader that has gone through the lines is behind them. -/
theorem behind_foldl (lines : List Line) : (lines.foldl readLine .start).Behind lines := by
  -- by induction on the lines, the last one being read last
  induction lines using List.reverseRecOn with
  | nil => exact Behind.start
  | append_singleton lines l ih =>
    rw [List.foldl_append]
    exact ih.readLine l

end Reader

/-! ### The end of the listing -/

/-- The bytes that are kept are the first 256. -/
theorem read_program (lines : List Line) :
    (read ⟨lines⟩).program.toList = (bytes lines).take 256 := by
  have h := Reader.behind_foldl lines
  unfold read Reader.finish
  -- a last defect is no byte
  split
  · exact h.program_eq
  · exact h.program_eq

/-- The defects of the lines come first, and what is said about the size comes last. -/
theorem read_defects (lines : List Line) :
    ∃ size, (read ⟨lines⟩).defects.toList = lineDefects lines ++ size ∧
      SizeDefects lines size := by
  have h := Reader.behind_foldl lines
  unfold read Reader.finish
  split
  · -- without an overflow line all bytes have fitted
    next hnone =>
    refine ⟨[], by rw [h.defects_eq, List.append_nil], .fits ?_⟩
    rw [← not_lt, ← exists_isOverflow_iff]
    rintro ⟨number, hnumber⟩
    rw [(h.overflow_iff number).mpr hnumber] at hnone
    cases hnone
  · -- with an overflow line there were too many bytes, and their number is reported
    next number hsome =>
    have hoverflow := (h.overflow_iff number).mp hsome
    refine ⟨[⟨number, .tooLarge (bytes lines).length⟩], ?_,
      .tooLarge (exists_isOverflow_iff.mp ⟨number, hoverflow⟩) hoverflow⟩
    simp only [Reader.report, Array.toList_push, h.defects_eq, h.size_eq]

/-- There is one first byte that does not fit, since the reader remembers one line only. -/
theorem IsOverflow.unique {lines : List Line} {m n : Nat} (hm : IsOverflow lines m)
    (hn : IsOverflow lines n) : m = n := by
  -- two lines that are the overflow line are both what the reader remembers
  have h := (Reader.behind_foldl lines).overflow_iff
  rw [← h] at hm hn
  exact Option.some.inj (hm.symm.trans hn)

/-- What is reported about the size is determined by the lines. -/
theorem SizeDefects.unique {lines : List Line} {s t : List Defect} (hs : SizeDefects lines s)
    (ht : SizeDefects lines t) : s = t := by
  -- the lines cannot both fit and not fit
  cases hs with
  | fits hs =>
    cases ht with
    | fits ht => rfl
    | tooLarge ht hn => omega
  | tooLarge hs hm =>
    cases ht with
    | fits ht => omega
    | tooLarge ht hn => rw [hm.unique hn]

/-- Nothing is reported exactly if the lines make up a program. -/
theorem defects_isEmpty_iff (lines : List Line) :
    (read ⟨lines⟩).defects.isEmpty ↔ IsValid lines := by
  obtain ⟨size, hdefects, hsize⟩ := read_defects lines
  rw [Array.isEmpty_iff, ← Array.toList_eq_nil_iff, hdefects, List.append_eq_nil_iff,
    lineDefects_eq_nil_iff]
  -- of the two parts of the defects, the second one is about the size
  refine and_congr_right fun _ => ?_
  cases hsize with
  | fits h => exact iff_of_true rfl h
  | tooLarge h => exact iff_of_false (List.cons_ne_nil _ _) (not_le.mpr h)

/-- The program of sound lines are their bytes. -/
theorem program_eq_ok_iff {lines : List Line} {program : List Byte} :
    Listing.program ⟨lines⟩ = .ok program ↔ IsValid lines ∧ program = bytes lines := by
  rw [Listing.program, ← defects_isEmpty_iff]
  split
  · next h =>
    -- nothing was cut off
    have hall := List.take_of_length_le ((defects_isEmpty_iff lines).mp h).2
    rw [read_program, hall, Except.ok.injEq, eq_comm]
    exact (and_iff_right h).symm
  · next h => exact iff_of_false (by simp) (fun hvalid => h hvalid.1)

/-- Lines that make up no program are refused with all their defects. -/
theorem program_eq_error_iff {lines : List Line} {defects : List Defect} :
    Listing.program ⟨lines⟩ = .error defects ↔ ¬IsValid lines ∧
      ∃ size, SizeDefects lines size ∧ defects = lineDefects lines ++ size := by
  obtain ⟨size, hdefects, hsize⟩ := read_defects lines
  rw [Listing.program, ← defects_isEmpty_iff]
  split
  · next h => exact iff_of_false (by simp) (fun hinvalid => hinvalid.1 h)
  · next h =>
    rw [Except.error.injEq, hdefects, and_iff_right h]
    -- what is said about the size is the same whoever says it
    refine ⟨fun heq => ⟨size, hsize, heq.symm⟩, ?_⟩
    rintro ⟨other, hother, rfl⟩
    rw [hsize.unique hother]

/-! ### Messages -/

/-- What is said about a malformed line. -/
theorem message_malformed (number : Nat) (content : String) :
    (Defect.mk number (.malformed content)).message =
      "error [ln: " ++ toString number ++ "]: failed to parse byte with radix `2` - `" ++ content ++
        "` is not a binary byte" := by
  have hradix : toString Numeral.radix = "2" := rfl
  show "error [ln: " ++ toString number ++ "]: " ++
    ("failed to parse byte with radix `" ++ toString Numeral.radix ++ "`") ++ " - " ++
      ("`" ++ content ++ "` is not a binary byte") = _
  rw [hradix]
  simp only [String.append_assoc]
  rfl

/-- What is said about a program that is too long. -/
theorem message_tooLarge (number size : Nat) :
    (Defect.mk number (.tooLarge size)).message =
      "error [ln: " ++ toString number ++ "]: program of `" ++ toString size ++
        "` bytes does not fit into `256` bytes of memory - bytes from line " ++ toString number ++
          " on are outside of memory" := by
  have hsize : toString Memory.size = "256" := rfl
  show "error [ln: " ++ toString number ++ "]: " ++
    ("program of `" ++ toString size ++ "` bytes does not fit into `" ++ toString Memory.size ++
      "` bytes of memory") ++ " - " ++
        ("bytes from line " ++ toString number ++ " on are outside of memory") = _
  rw [hsize]
  simp only [String.append_assoc]
  rfl

/-! ### Texts -/

/-- All that is reported about a text. About a program there is nothing to report. -/
def defectsIn (text : String) : List Defect :=
  match parseProgram text with
  | .ok _ => []
  | .error defects => defects

/-- The defects of a text are those of its lines and the one of its size. -/
theorem exists_defectsIn_eq (text : String) :
    ∃ size, SizeDefects (ofText text).lines size ∧
      defectsIn text = lineDefects (ofText text).lines ++ size := by
  unfold defectsIn
  cases htext : parseProgram text with
  | ok program =>
    -- a program has sound lines that fit, so there is nothing of either kind
    obtain ⟨⟨hsound, hfits⟩, -⟩ := program_eq_ok_iff.mp htext
    have hnone : lineDefects (ofText text).lines = [] := lineDefects_eq_nil_iff.mpr hsound
    refine ⟨[], .fits hfits, ?_⟩
    rw [hnone]
    rfl
  | error defects =>
    obtain ⟨-, size, hsize, hdefects⟩ := program_eq_error_iff.mp htext
    exact ⟨size, hsize, hdefects⟩

/-- About every other text something is reported. -/
theorem defectsIn_eq_nil_iff {text : String} :
    defectsIn text = [] ↔ ∃ program, parseProgram text = .ok program := by
  constructor
  · -- with no defects of lines and none of the size, the lines make up a program
    intro hnone
    obtain ⟨size, hsize, hdefects⟩ := exists_defectsIn_eq text
    rw [hnone, eq_comm, List.append_eq_nil_iff, lineDefects_eq_nil_iff] at hdefects
    obtain ⟨hsound, rfl⟩ := hdefects
    cases hsize with
    | fits hfits => exact ⟨_, program_eq_ok_iff.mpr ⟨⟨hsound, hfits⟩, rfl⟩⟩
  · rintro ⟨program, hprogram⟩
    rw [defectsIn, hprogram]

/-- The classes of the lines of a text are determined by the grammar. -/
theorem forall₂_reads_iff {lines : List (List Char)} {classes : List Line} :
    List.Forall₂ Line.Reads lines classes ↔ classes = lines.map .ofChars := by
  -- the grammar of a line is a function of it, so classes can be computed line by line
  have hreads : Line.Reads = fun line l => Line.ofChars line = l := by
    funext line l
    exact propext (reads_iff.trans eq_comm)
  rw [hreads, ← List.forall₂_map_left_iff, List.forall₂_eq_eq_eq, eq_comm]

/-- **A text denotes a program exactly if each of its lines is blank or a byte and there are at most
256 bytes**, and the program then consists of these bytes. Every other text is refused with one
defect for each malformed line, followed by one for the first byte that does not fit into memory if
there are too many. -/
theorem parseProgram_grammar (text : String) :
    ∃ lines : List Line,
      (∀ classes, List.Forall₂ Line.Reads (Text.linesOfPieces (text.toList.splitOn '\n')) classes ↔
        classes = lines) ∧
      (∀ program, parseProgram text = .ok program ↔
        (∀ content, Line.malformed content ∉ lines) ∧ (bytes lines).length ≤ 256 ∧
          program = bytes lines) ∧
      (∀ defects, parseProgram text = .error defects ↔
        ((∃ content, Line.malformed content ∈ lines) ∨ 256 < (bytes lines).length) ∧
          ∃ size, SizeDefects lines size ∧ defects = lineDefects lines ++ size) ∧
      (∀ number content, (Defect.mk number (.malformed content)).message =
        "error [ln: " ++ toString number ++ "]: failed to parse byte with radix `2` - `" ++
          content ++ "` is not a binary byte") ∧
      (∀ number size, (Defect.mk number (.tooLarge size)).message =
        "error [ln: " ++ toString number ++ "]: program of `" ++ toString size ++
          "` bytes does not fit into `256` bytes of memory - bytes from line " ++
            toString number ++ " on are outside of memory") := by
  refine ⟨(Text.lines text.toList).map .ofChars, ?_, ?_, ?_, message_malformed,
    message_tooLarge⟩
  · intro classes
    rw [← Text.lines_eq_linesOfPieces]
    exact forall₂_reads_iff
  · intro program
    rw [← and_assoc]
    exact program_eq_ok_iff
  · intro defects
    refine program_eq_error_iff.trans (and_congr_left' ?_)
    rw [IsValid, not_and_or, not_forall, not_le]
    exact or_congr_left (exists_congr fun _ => not_not)

end ByteMachine.Listing
