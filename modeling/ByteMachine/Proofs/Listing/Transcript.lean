import ByteMachine.Listing.Loading
import ByteMachine.Proofs.Listing.Rendering
import ByteMachine.Proofs.Text.Words

/-!
# What reading a listing enters into the journal

A byte line enters its value, a malformed line its defect, and a blank line nothing; behind the last
line, what is to be said about the size is entered (`transcript_eq`). So of those records that are
important enough to be shown without being asked for, there is one for every defect, in the order of
the defects (`filter_transcript`).

The other records tell the bytes. The last word of each of them is a numeral, which can be read back
by the rules of listings (`byte?_record?`), and whoever does that for the whole transcript gets the
bytes of the listing, those included that do not fit into memory (`filterMap_byte?_transcript`). So
the result of the reading can be told from the journal alone (`transcript_is_exact`).
-/

namespace ByteMachine

/-- The record that reports a defect. -/
def Defect.record (d : Defect) : Record where
  level := .error
  origin := .listing
  text := d.message

/-- The byte that the record of a byte line tells. Its numeral is the last word of the text. -/
def Record.byte? (r : Record) : Option Byte :=
  if r.level = .trace then (Text.words r.text.toList).getLast?.bind Numeral.byte? else none

/-- The texts of the records that report a defect. -/
def errorTexts (records : List Record) : List String :=
  (records.filter (·.level == .error)).map Record.text

namespace Listing

/-- The record that a line with the given number enters, if it enters one. -/
def Line.record? (number : Nat) : Line → Option Record
  | blank => none
  | byte value => some
    { level := .trace
      origin := .listing
      text := "[" ++ toString number ++ "] Found byte 0b" ++ value.binary 8 }
  | malformed text => some (Defect.record ⟨number, .malformed text⟩)

/-- The records of the single lines in order. Lines are counted from one. -/
def lineRecords (lines : List Line) : List Record :=
  (lines.zipIdx 1).filterMap fun (line, number) => line.record? number

variable {lines : List Line}

/-- A line that is added has its record behind all others. -/
theorem lineRecords_concat (lines : List Line) (l : Line) :
    lineRecords (lines ++ [l]) = lineRecords lines ++ (l.record? (lines.length + 1)).toList := by
  rw [lineRecords, List.zipIdx_append, List.filterMap_append, Nat.add_comm 1 lines.length]
  cases l <;> rfl

/-! ### The records of the reader -/

namespace Reader

/-- To store a byte enters nothing. -/
@[simp] theorem store_records (r : Reader) (value : Byte) :
    (r.store value).records = r.records := by rw [store_eq]

/-- A line enters its own record. -/
theorem records_readLine (r : Reader) (l : Line) :
    (r.readLine l).records.toList = r.records.toList ++ (l.record? (r.line + 1)).toList := by
  cases l with
  | blank => exact (List.append_nil _).symm
  | byte value =>
    -- the byte is noted before it is stored
    show ((note { r with line := r.line + 1 } value).store value).records.toList = _
    rw [store_records]
    exact Array.toList_push
  | malformed text => exact Array.toList_push

/-- All lines enter their records, in order. -/
theorem records_foldl (lines : List Line) :
    (lines.foldl readLine .start).records.toList = lineRecords lines := by
  -- the number of a line is the number of lines in front of it, and one more
  induction lines using List.reverseRecOn with
  | nil => rfl
  | append_singleton lines l ih =>
    rw [List.foldl_append, List.foldl_cons, List.foldl_nil, records_readLine, ih,
      (behind_foldl lines).line_eq, lineRecords_concat]

/-- At the end, the same defects are reported as are entered. -/
theorem records_finish (r : Reader) :
    ∃ size : List Defect, r.finish.defects.toList = r.defects.toList ++ size ∧
      r.finish.records.toList = r.records.toList ++ size.map Defect.record := by
  unfold finish
  split
  · exact ⟨[], (List.append_nil _).symm, (List.append_nil _).symm⟩
  · next line _ => exact ⟨[⟨line, .tooLarge r.size⟩], Array.toList_push, Array.toList_push⟩

end Reader

/-- **The transcript has the records of the lines, and then what is said about the size.** -/
theorem transcript_eq (lines : List Line) :
    ∃ size, SizeDefects lines size ∧
      transcript ⟨lines⟩ = lineRecords lines ++ size.map Defect.record := by
  obtain ⟨size, hdefects, hrecords⟩ := (lines.foldl Reader.readLine .start).records_finish
  obtain ⟨size', hdefects', hsize⟩ := read_defects lines
  -- whatever is said behind the last line comes behind the defects of the lines as well
  have hsame : size = size' := by
    rw [(Reader.behind_foldl lines).defects_eq] at hdefects
    exact List.append_cancel_left (hdefects.symm.trans hdefects')
  subst hsame
  refine ⟨size, hsize, ?_⟩
  rw [Reader.records_foldl] at hrecords
  exact hrecords

/-! ### What is important -/

/-- Of a program nothing was reported. -/
theorem defects_of_program_eq_ok {l : Listing} {program : List Byte} (h : l.program = .ok program) :
    l.read.defects.toList = [] := by
  rw [Listing.program] at h
  split at h
  · next hnone => exact Array.toList_eq_nil_iff.mpr (Array.isEmpty_iff.mp hnone)
  · cases h

/-- What a text is refused with is all that was reported. -/
theorem defects_of_program_eq_error {l : Listing} {defects : List Defect}
    (h : l.program = .error defects) : l.read.defects.toList = defects := by
  rw [Listing.program] at h
  split at h
  · cases h
  · exact Except.error.inj h

section

variable {p : Level → Bool} (herror : p .error = true) (htrace : p .trace = false)

include herror htrace

/-- The important records of the lines are those of their defects. -/
theorem filter_lineRecords (lines : List Line) :
    (lineRecords lines).filter (fun r => p r.level) = (lineDefects lines).map Defect.record := by
  -- by induction on the lines; a byte enters a record as well, but not an important one
  induction lines using List.reverseRecOn with
  | nil => rfl
  | append_singleton lines l ih =>
    rw [lineRecords_concat, lineDefects_concat, List.filter_append, List.map_append, ih]
    congr 1
    cases l with
    | blank => rfl
    | byte value => exact List.filter_cons_of_neg (by simp [htrace])
    | malformed text => exact List.filter_cons_of_pos herror

/-- **The important records of a transcript are those of the defects.** -/
theorem filter_transcript (l : Listing) :
    l.transcript.filter (fun r => p r.level) = l.read.defects.toList.map Defect.record := by
  obtain ⟨lines⟩ := l
  obtain ⟨size, hsize, htranscript⟩ := transcript_eq lines
  obtain ⟨size', hdefects, hsize'⟩ := read_defects lines
  obtain rfl := hsize.unique hsize'
  -- what is said about the size is as important as the other defects
  have hrecords :
      (size.map Defect.record).filter (fun r => p r.level) = size.map Defect.record := by
    refine List.filter_eq_self.mpr ?_
    intro r hr
    obtain ⟨d, -, rfl⟩ := List.mem_map.mp hr
    exact herror
  rw [htranscript, hdefects, List.filter_append, filter_lineRecords herror htrace, hrecords,
    List.map_append]

/-- In the transcript of a program nothing is important. -/
theorem filter_transcript_of_ok {l : Listing} {program : List Byte} (h : l.program = .ok program) :
    l.transcript.filter (fun r => p r.level) = [] := by
  rw [filter_transcript herror htrace, defects_of_program_eq_ok h, List.map_nil]

/-- In any other transcript its defects are. -/
theorem filter_transcript_of_error {l : Listing} {defects : List Defect}
    (h : l.program = .error defects) :
    l.transcript.filter (fun r => p r.level) = defects.map Defect.record := by
  rw [filter_transcript herror htrace, defects_of_program_eq_error h]

end

/-! ### Reading the transcript back -/

/-- **The record of a line tells the byte on it**, and the records of other lines tell none. -/
theorem byte?_record? (number : Nat) (l : Line) :
    (l.record? number).bind Record.byte? = l.byte? := by
  cases l with
  | blank | malformed => rfl
  | byte value =>
    -- the numeral is the last word, as there is no blank in it
    have hblank : ' ' ∉ '0' :: 'b' :: (value.binary 8).toList := by
      obtain ⟨s, hs⟩ := Numeral.exists_write_eq_binary value
      rw [← hs, List.mem_cons, List.mem_cons, not_or, not_or]
      refine ⟨by decide, by decide, ?_⟩
      intro hmem
      exact absurd (Numeral.mem_of_mem_write hmem) (by decide)
    have htext : ("[" ++ toString number ++ "] Found byte 0b" ++ value.binary 8).toList =
        ("[" ++ toString number ++ "] Found byte").toList ++
          ' ' :: '0' :: 'b' :: (value.binary 8).toList := by
      simp
    show (Text.words ("[" ++ toString number ++ "] Found byte 0b" ++
      value.binary 8).toList).getLast?.bind Numeral.byte? = some value
    rw [htext, Text.getLast?_words _ hblank]
    exact Numeral.byte?_mark_binary value

example : (Record.mk .trace .listing "[3] Found byte 0b00000101").byte? = some 5 := by
  decide +kernel

/-- All bytes can be read off the records of the lines. -/
theorem filterMap_byte?_lineRecords (lines : List Line) :
    (lineRecords lines).filterMap Record.byte? = bytes lines := by
  rw [lineRecords, List.filterMap_filterMap]
  -- what a line tells does not depend on its number
  calc (lines.zipIdx 1).filterMap (fun x => (x.1.record? x.2).bind Record.byte?)
    _ = (lines.zipIdx 1).filterMap (Line.byte? ∘ Prod.fst) :=
      List.filterMap_congr fun x _ => byte?_record? x.2 x.1
    _ = ((lines.zipIdx 1).map Prod.fst).filterMap Line.byte? := List.filterMap_map.symm
    _ = bytes lines := by rw [List.zipIdx_map_fst, bytes]

/-- **All bytes of a listing can be read off its transcript**, whether they fit into memory or
not. -/
theorem filterMap_byte?_transcript (l : Listing) :
    l.transcript.filterMap Record.byte? = bytes l.lines := by
  obtain ⟨size, -, htranscript⟩ := transcript_eq l.lines
  have hsize : (size.map Defect.record).filterMap Record.byte? = [] := by
    rw [List.filterMap_map]
    exact List.filterMap_eq_nil_iff.mpr fun _ _ => rfl
  rw [htranscript, List.filterMap_append, filterMap_byte?_lineRecords, hsize, List.append_nil]

/-- **All defects of a text can be read off its transcript.** -/
theorem errorTexts_transcript (text : String) :
    errorTexts (ofText text).transcript = (defectsIn text).map Defect.message := by
  unfold errorTexts defectsIn
  cases htext : parseProgram text with
  | ok program =>
    rw [filter_transcript_of_ok (p := (· == .error)) rfl rfl htext]
    rfl
  | error defects =>
    rw [filter_transcript_of_error (p := (· == .error)) rfl rfl htext, List.map_map]
    rfl

/-- If the program is too large, its size is the number of all bytes. -/
theorem length_bytes_of_tooLarge {text : String} {number size : Nat}
    (h : ⟨number, .tooLarge size⟩ ∈ defectsIn text) :
    (bytes (ofText text).lines).length = size := by
  obtain ⟨_, hsize, hdefects⟩ := exists_defectsIn_eq text
  rw [hdefects, List.mem_append] at h
  obtain h | h := h
  · -- a defect of a line says nothing about the size
    obtain ⟨_, hcause⟩ := exists_malformed_of_mem_lineDefects h
    cases hcause
  · cases hsize with
    | fits => cases h
    | tooLarge _ _ =>
      obtain heq := List.mem_singleton.mp h
      exact (Defect.Cause.tooLarge.inj (congrArg Defect.cause heq)).symm

/-- The records are those that reading the text has to enter, and they tell what came of it. -/
structure TranscribedBy (text : String) (records : List Record) : Prop where
  /-- The records of the lines are in the order of the lines, and what is said about the size of the
  listing comes behind them. -/
  lines : ∃ lines size,
    List.Forall₂ Line.Reads (Text.linesOfPieces (text.toList.splitOn '\n')) lines ∧
      SizeDefects lines size ∧ records = lineRecords lines ++ size.map Defect.record
  errors : errorTexts records = (defectsIn text).map Defect.message
  success : errorTexts records = [] ↔ ∃ program, parseProgram text = .ok program
  program : ∀ program, parseProgram text = .ok program → records.filterMap Record.byte? = program
  size : ∀ number size, ⟨number, .tooLarge size⟩ ∈ defectsIn text →
    (records.filterMap Record.byte?).length = size

/-- **What reading a listing enters into the journal is an exact transcript.** It has one record for
every line that is not blank and one more if the program is too large, so the defects and the bytes
can be read back from it. In front of it is the path, if it comes from a file that could be read. -/
theorem transcript_is_exact :
    (∀ text, TranscribedBy text (ofText text).transcript) ∧
      ∀ (s : Storage) (path : String), (s.loadProgram path).records =
        match s.readText path with
        | .ok text => ⟨.debug, .listing, "Loaded `" ++ path ++ "`"⟩ :: (ofText text).transcript
        | .error _ => [] := by
  constructor
  · intro text
    have hbytes := filterMap_byte?_transcript (ofText text)
    have herrors := errorTexts_transcript text
    refine ⟨?lines, herrors, ?success, ?program, ?size⟩
    case lines =>
      obtain ⟨size, hsize, htranscript⟩ := transcript_eq (ofText text).lines
      refine ⟨_, size, ?_, hsize, htranscript⟩
      rw [← Text.lines_eq_linesOfPieces]
      exact forall₂_reads_iff.mpr rfl
    case success => rw [herrors, List.map_eq_nil_iff, defectsIn_eq_nil_iff]
    case program =>
      intro program hprogram
      exact hbytes.trans (program_eq_ok_iff.mp hprogram).2.symm
    case size =>
      intro number size hlarge
      rw [hbytes]
      exact length_bytes_of_tooLarge hlarge
  · intro s path
    rw [Storage.loadProgram]
    cases s.readText path with
    | ok text => rfl
    | error error => rfl

end Listing

end ByteMachine
