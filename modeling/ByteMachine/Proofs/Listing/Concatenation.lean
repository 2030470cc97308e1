import ByteMachine.Proofs.Listing.Reading

/-!
# Reading a text in parts

A text whose last line is ended can be read on its own, and so can whatever follows it. This module
says how the results of the two are put together to the result for the whole
(`reading_is_compositional`).

* The lines of the whole are those of the first part and then those of the second
  (`lines_ofText_append`). So its bytes are the bytes of both, and its defects are those of both,
  except that the lines of the second part now have more lines in front of them
  (`lineDefects_append`).
* Whether the bytes fit into memory cannot be told from the parts one by one: either of them may
  fit, and the whole may not. But the line with the first byte that does not fit can be found in
  one of them. It is the one found in the first part, if that has too many bytes already, and
  otherwise the second part has it, at the byte with which the two have come to 257
  (`IsOverflow.split`).
-/

namespace ByteMachine

/-- The defect is one of a single line. -/
def Defect.isMalformed (d : Defect) : Bool :=
  match d.cause with
  | .malformed _ => true
  | .tooLarge _ => false

/-- The same defect when `k` lines have been put in front of the text. -/
def Defect.behind (k : Nat) (d : Defect) : Defect :=
  { d with line := k + d.line }

namespace Listing

/-- The number of lines of a text. -/
def lineCount (text : String) : Nat :=
  (ofText text).lines.length

/-- The number of bytes in a text, whether they fit into memory or not. -/
def byteCount (text : String) : Nat :=
  (bytes (ofText text).lines).length

/-- The defects of single lines that are reported about a text. -/
def malformedIn (text : String) : List Defect :=
  (defectsIn text).filter Defect.isMalformed

/-- The `i`-th byte of the lines, counted from one, is on the line with the given number. -/
def IsByteLine (lines : List Line) (i number : Nat) : Prop :=
  ∃ before value after, lines = before ++ .byte value :: after ∧
    (bytes before).length + 1 = i ∧ number = before.length + 1

/-- What is reported about the size of the text `t ++ t'`, in terms of its two parts. -/
inductive SizeInParts (t t' : String) : List Defect → Prop where
  | fits (h : byteCount t + byteCount t' ≤ 256) : SizeInParts t t' []
  /-- The first part does not fit. Its line is reported, but all bytes are counted. -/
  | first {number : Nat} (h : 256 < byteCount t)
      (hnumber : ⟨number, .tooLarge (byteCount t)⟩ ∈ defectsIn t) :
      SizeInParts t t' [⟨number, .tooLarge (byteCount t + byteCount t')⟩]
  /-- The first part fits, and the second does not fit behind it. -/
  | second {number : Nat} (hfits : byteCount t ≤ 256) (h : 256 < byteCount t + byteCount t')
      (hnumber : IsByteLine (ofText t').lines (257 - byteCount t) number) :
      SizeInParts t t' [⟨lineCount t + number, .tooLarge (byteCount t + byteCount t')⟩]

/-- What reading the text `t ++ t'` comes to, in terms of what reading its two parts comes to. -/
structure ReadsInParts (t t' : String) : Prop where
  malformed : malformedIn (t ++ t') =
    malformedIn t ++ (malformedIn t').map (.behind (lineCount t))
  /-- In the message, too, only the number of the line is another one. -/
  message : ∀ d ∈ malformedIn t', ∃ text,
    d.message = "error [ln: " ++ toString d.line ++ "]: " ++ text ∧
      (d.behind (lineCount t)).message =
        "error [ln: " ++ toString (lineCount t + d.line) ++ "]: " ++ text
  /-- What is to be said about the size comes last. -/
  size : ∃ size, SizeInParts t t' size ∧ defectsIn (t ++ t') = malformedIn (t ++ t') ++ size
  program : malformedIn (t ++ t') = [] → byteCount t + byteCount t' ≤ 256 →
    ∃ program program', parseProgram t = .ok program ∧ parseProgram t' = .ok program' ∧
      parseProgram (t ++ t') = .ok (program ++ program')

variable {lines before after : List Line} {size : List Defect} {d : Defect} {t t' : String}
  {number : Nat}

/-! ### Defects of single lines -/

/-- A line that stands further below has the same defect there. -/
theorem defect?_add (l : Line) (k number : Nat) :
    l.defect? (k + number) = (l.defect? number).map (Defect.behind k) := by
  cases l <;> rfl

/-- The defects of the lines behind others are the same, at the lines which they have there. -/
theorem lineDefects_append (before after : List Line) :
    lineDefects (before ++ after) =
      lineDefects before ++ (lineDefects after).map (.behind before.length) := by
  -- by induction on the lines behind, each of which adds its own defect to both sides
  induction after using List.reverseRecOn with
  | nil =>
    rw [List.append_nil]
    exact (List.append_nil _).symm
  | append_singleton after l ih =>
    rw [← List.append_assoc, lineDefects_concat, lineDefects_concat, ih, List.length_append,
      List.map_append, List.append_assoc, Nat.add_assoc, defect?_add, Option.toList_map]

/-- What is reported about a single line is a defect of a line. -/
theorem isMalformed_of_mem_lineDefects (h : d ∈ lineDefects lines) : d.isMalformed := by
  obtain ⟨text, hcause⟩ := exists_malformed_of_mem_lineDefects h
  rw [Defect.isMalformed, hcause]

/-- What is reported about the size is no defect of a line. -/
theorem SizeDefects.filter_eq_nil (h : SizeDefects lines size) :
    size.filter Defect.isMalformed = [] := by
  cases h with
  | fits => rfl
  | tooLarge => rfl

/-- The defects of single lines that are reported are all that the lines have. -/
theorem malformedIn_eq (text : String) : malformedIn text = lineDefects (ofText text).lines := by
  obtain ⟨size, hsize, hdefects⟩ := exists_defectsIn_eq text
  rw [malformedIn, hdefects, List.filter_append, hsize.filter_eq_nil, List.append_nil]
  exact List.filter_eq_self.mpr fun d hd => isMalformed_of_mem_lineDefects hd

/-- The message of a defect begins with the number of its line, and the rest does not mention it. -/
theorem message_eq (d : Defect) :
    d.message =
      "error [ln: " ++ toString d.line ++ "]: " ++ (d.cause.kindText ++ (" - " ++ d.context)) := by
  rw [Defect.message, String.append_assoc, String.append_assoc]

/-! ### The first byte that does not fit -/

/-- Bytes may cease to fit before the second part begins, or in the second part. -/
theorem IsOverflow.split (h : IsOverflow (before ++ after) number) :
    256 < (bytes before).length ∧ IsOverflow before number ∨
      (bytes before).length ≤ 256 ∧
        ∃ n, IsByteLine after (257 - (bytes before).length) n ∧ number = before.length + n := by
  obtain ⟨front, value, rest, hlines, hfront, rfl⟩ := h
  obtain ⟨more, rfl, hafter⟩ | ⟨more, rfl, hmore⟩ := List.append_eq_append_iff.mp hlines
  · -- the line is one of the second part, and `more` stands in front of it there
    rw [bytes_append, List.length_append] at hfront
    refine .inr ⟨by omega, more.length + 1, ⟨more, value, rest, hafter, by omega, rfl⟩, ?_⟩
    rw [List.length_append, Nat.add_assoc]
  · obtain ⟨rfl, rfl⟩ | ⟨more, rfl, rfl⟩ := List.cons_eq_append_iff.mp hmore
    · -- it is the first line of the second part
      rw [List.append_nil, hfront]
      exact .inr ⟨Nat.le_refl 256, 1, ⟨[], value, rest, rfl, rfl, rfl⟩, rfl⟩
    · -- it is a line of the first part, so that part has the 257th byte
      have hoverflow : IsOverflow (front ++ .byte value :: more) (front.length + 1) :=
        ⟨front, value, more, rfl, hfront, rfl⟩
      exact .inl ⟨exists_isOverflow_iff.mp ⟨_, hoverflow⟩, hoverflow⟩

/-- The line with the first byte that does not fit is reported. -/
theorem mem_defectsIn_of_isOverflow (hlarge : 256 < byteCount t)
    (h : IsOverflow (ofText t).lines number) :
    ⟨number, .tooLarge (byteCount t)⟩ ∈ defectsIn t := by
  obtain ⟨size, hsize, hdefects⟩ := exists_defectsIn_eq t
  -- what is reported about the size is unique, so it is this defect
  obtain rfl := hsize.unique (.tooLarge hlarge h)
  rw [hdefects]
  exact List.mem_append_right _ (List.mem_singleton_self _)

/-- What is reported about the size of the whole can be told from the two parts. -/
theorem SizeDefects.inParts (h : SizeDefects ((ofText t).lines ++ (ofText t').lines) size) :
    SizeInParts t t' size := by
  have hcount : (bytes ((ofText t).lines ++ (ofText t').lines)).length =
      byteCount t + byteCount t' := by
    rw [bytes_append, List.length_append]
    rfl
  cases h with
  | fits h =>
    rw [hcount] at h
    exact .fits h
  | tooLarge h hnumber =>
    rw [hcount] at h ⊢
    obtain ⟨hlarge, hoverflow⟩ | ⟨hfits, n, hline, rfl⟩ := hnumber.split
    · exact .first hlarge (mem_defectsIn_of_isOverflow hlarge hoverflow)
    · exact .second hfits h hline

/-! ### The whole text -/

/-- The lines of the whole are those of the parts, if the first part is ended. -/
theorem lines_ofText_append (h : t = "" ∨ t.toList.getLast? = some '\n') (t' : String) :
    (ofText (t ++ t')).lines = (ofText t).lines ++ (ofText t').lines := by
  have hended : t.toList = [] ∨ t.toList.getLast? = some '\n' :=
    h.imp_left fun hempty => by rw [hempty]; rfl
  rw [ofText, ofText, ofText, String.toList_append, Text.lines_append hended, List.map_append]

/-- A text without malformed lines whose bytes fit denotes the program of these bytes. -/
theorem parseProgram_of_malformedIn_eq_nil (h : malformedIn t = []) (hfits : byteCount t ≤ 256) :
    parseProgram t = .ok (bytes (ofText t).lines) := by
  rw [malformedIn_eq, lineDefects_eq_nil_iff] at h
  exact program_eq_ok_iff.mpr ⟨⟨h, hfits⟩, rfl⟩

/-- **Reading is compositional**: a text in two parts, the first of which ends with a line feed, is
read as the one part and then the other. -/
theorem reading_is_compositional (h : t = "" ∨ t.toList.getLast? = some '\n') :
    ReadsInParts t t' := by
  have hlines := lines_ofText_append h t'
  have hmalformed : malformedIn (t ++ t') =
      malformedIn t ++ (malformedIn t').map (.behind (lineCount t)) := by
    rw [malformedIn_eq, malformedIn_eq, malformedIn_eq, hlines, lineDefects_append]
    rfl
  constructor
  case malformed => exact hmalformed
  case message =>
    intro d hd
    rw [malformedIn_eq] at hd
    -- neither what is wrong nor the text that is quoted depends on the line
    obtain ⟨number, cause⟩ := d
    obtain ⟨text, rfl⟩ : ∃ text, cause = .malformed text := exists_malformed_of_mem_lineDefects hd
    exact ⟨_, message_eq ⟨number, .malformed text⟩, message_eq _⟩
  case size =>
    obtain ⟨size, hsize, hdefects⟩ := exists_defectsIn_eq (t ++ t')
    rw [hlines] at hsize
    rw [malformedIn_eq]
    exact ⟨size, hsize.inParts, hdefects⟩
  case program =>
    -- without defects, the bytes of the whole are those of its parts one after the other
    intro hnone hfits
    have hbytes : bytes (ofText (t ++ t')).lines =
        bytes (ofText t).lines ++ bytes (ofText t').lines := by
      rw [hlines, bytes_append]
    have hcount : byteCount (t ++ t') = byteCount t + byteCount t' := by
      rw [byteCount, hbytes, List.length_append]
      rfl
    -- what the whole has none of, the parts have none of
    obtain ⟨hfirst, hsecond⟩ : malformedIn t = [] ∧ malformedIn t' = [] := by
      rwa [hmalformed, List.append_eq_nil_iff, List.map_eq_nil_iff] at hnone
    refine ⟨_, _, parseProgram_of_malformedIn_eq_nil hfirst (by omega),
      parseProgram_of_malformedIn_eq_nil hsecond (by omega), ?_⟩
    rw [parseProgram_of_malformedIn_eq_nil hnone (by omega), hbytes]

/-- A line that is malformed in the second part, and is the fifth one of the whole. -/
theorem reading_is_compositional_defect :
    let t := "1\n10\n"
    let t' := "\n0b0 # zero\ntwo"
    t.toList.getLast? = some '\n' ∧ ReadsInParts t t' ∧
      malformedIn t' = [⟨3, .malformed "two"⟩] ∧
      malformedIn (t ++ t') = [⟨5, .malformed "two"⟩] := by
  intro t t'
  have hended : t.toList.getLast? = some '\n' := by decide
  have hparts : ReadsInParts t t' := reading_is_compositional (.inr hended)
  have hsecond : malformedIn t' = [⟨3, .malformed "two"⟩] := by decide +kernel
  have hfirst : malformedIn t = [] := by decide +kernel
  refine ⟨hended, hparts, hsecond, ?_⟩
  rw [hparts.malformed, hfirst, hsecond]
  decide +kernel

end Listing

end ByteMachine
