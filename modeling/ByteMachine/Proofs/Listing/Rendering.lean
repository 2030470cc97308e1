import ByteMachine.Proofs.Listing.Layout
import ByteMachine.Proofs.Memory.Blocks
import Mathlib.Data.Nat.Digits.Lemmas

/-!
# Reading undoes rendering

Bytes are rendered by writing one numeral on every line. The author of a listing has a choice for
each of them, which is its `Numeral.Spelling`: with the mark or without, with the sign or without,
and with as many zeros in front of the digits as one likes.

Whatever is chosen, what is read is what was rendered (`reading_undoes_rendering`). For a single
numeral this is the grammar of numerals, since zeros in front do not change the number that digits
stand for (`denotes_write`); a numeral holds nothing that could be taken for a comment or for white
space (`content_write`); and a text of such lines reads as these lines do. What is left is to count
the lines: every line holds a byte, so if there are more bytes than cells, the first one that does
not fit is on the line behind the 256th.
-/

namespace ByteMachine

namespace Numeral

/-- A way to write a byte down. -/
structure Spelling where
  /-- The mark `0b` comes first. -/
  marked : Bool
  /-- A plus sign comes next. -/
  signed : Bool
  /-- The number of zeros in front of the digits. -/
  zeros : Nat

/-- The numeral of a byte. There is always a digit, as the digit of zero is a zero. -/
def Spelling.write (s : Spelling) (value : Byte) : List Char :=
  (if s.marked then ['0', 'b'] else []) ++ (if s.signed then ['+'] else []) ++
    (List.replicate s.zeros '0' ++ Nat.toDigits 2 value.toNat)

example : (Spelling.mk true true 2).write 5 = ['0', 'b', '+', '0', '0', '1', '0', '1'] := by decide

variable {s : Spelling} {value : Byte} {n width : Nat} {c : Char}

/-- The digits of a number, the most significant first, stand for the number. -/
theorem exists_digits_toDigits (n : Nat) :
    ∃ digits : List Nat, digits ≠ [] ∧ (∀ d ∈ digits, d < 2) ∧
      Nat.toDigits 2 n = digits.map Nat.digitChar ∧ Nat.ofDigits 2 digits.reverse = n := by
  -- the last digit is the remainder, and the others are those of the half
  induction n using Nat.strongRecOn with
  | ind n ih =>
    by_cases hn : n < 2
    · refine ⟨[n], List.cons_ne_nil n [], by simpa using hn, ?_, ?_⟩
      · rw [Nat.toDigits_of_lt_base hn, List.map_singleton]
      · rw [List.reverse_singleton, Nat.ofDigits_singleton]
    · obtain ⟨digits, -, hdigits, hchars, hvalue⟩ := ih (n / 2) (by omega)
      refine ⟨digits ++ [n % 2], by simp, ?_, ?_, ?_⟩
      · intro d hd
        obtain hd | hd := List.mem_append.mp hd
        · exact hdigits d hd
        · rw [List.mem_singleton.mp hd]
          exact Nat.mod_lt n (by decide)
      · rw [Nat.toDigits_of_base_le (by decide) (by omega), hchars, List.map_append,
          List.map_singleton]
      · rw [List.reverse_append, List.reverse_singleton, List.singleton_append, Nat.ofDigits_cons,
          hvalue]
        exact Nat.mod_add_div n 2

/-- **Every spelling of a byte is a numeral of it.** -/
theorem denotes_write (s : Spelling) (value : Byte) : Denotes (s.write value) value.toNat := by
  obtain ⟨digits, hne, hdigits, hchars, hvalue⟩ := exists_digits_toDigits value.toNat
  -- the zeros are digits as well, but the number does not change
  have hzeros : Nat.ofDigits 2 (List.replicate s.zeros 0 ++ digits).reverse = value.toNat := by
    rw [List.reverse_append, List.reverse_replicate, Nat.ofDigits_append_replicate_zero, hvalue]
  have hall : ∀ d ∈ List.replicate s.zeros 0 ++ digits, d < 2 := by
    intro d hd
    obtain hd | hd := List.mem_append.mp hd
    · rw [List.eq_of_mem_replicate hd]
      decide
    · exact hdigits d hd
  have hwrite : s.write value = (if s.marked then ['0', 'b'] else []) ++
      (if s.signed then ['+'] else []) ++
        (List.replicate s.zeros 0 ++ digits).map Nat.digitChar := by
    rw [Spelling.write, hchars, List.map_append, List.map_replicate]
    rfl
  rw [hwrite, ← hzeros]
  refine .intro ?_ ?_ (List.append_ne_nil_of_right_ne_nil _ hne) hall
  · split
    · simp
    · simp
  · split
    · simp
    · simp

/-- Spellings need four characters only. -/
theorem mem_of_mem_write (h : c ∈ s.write value) : c ∈ ['0', '1', 'b', '+'] := by
  have hmark : ∀ c ∈ if s.marked then ['0', 'b'] else [], c ∈ ['0', '1', 'b', '+'] := by
    split
    · simp
    · simp
  have hsign : ∀ c ∈ if s.signed then ['+'] else [], c ∈ ['0', '1', 'b', '+'] := by
    split
    · simp
    · simp
  -- a character is one of the mark, of the sign, of the zeros or of the digits
  rw [Spelling.write, List.mem_append, List.mem_append, List.mem_append] at h
  obtain (h | h) | h | h := h
  · exact hmark c h
  · exact hsign c h
  · rw [List.eq_of_mem_replicate h]
    decide
  · obtain ⟨digits, -, hdigits, hchars, -⟩ := exists_digits_toDigits value.toNat
    rw [hchars] at h
    obtain ⟨d, hd, rfl⟩ := List.mem_map.mp h
    obtain rfl | rfl : d = 0 ∨ d = 1 := by
      have := hdigits d hd
      omega
    · decide
    · decide

/-- The bits of a number in a column of some width are its digits with zeros in front. -/
theorem exists_replicate_append_toDigits (hwidth : 0 < width) (hn : n < 2 ^ width) :
    ∃ zeros, ((List.range width).reverse.map fun i => if n.testBit i then '1' else '0') =
      List.replicate zeros '0' ++ Nat.toDigits 2 n := by
  -- by induction on the width; the last bit is the last digit
  induction width, hwidth using Nat.le_induction generalizing n with
  | base =>
    refine ⟨0, ?_⟩
    obtain rfl | rfl : n = 0 ∨ n = 1 := by omega
    · decide
    · decide
  | succ width hwidth ih =>
    have hlast : (if n.testBit 0 then '1' else '0') = Nat.digitChar (n % 2) := by
      obtain h | h : n % 2 = 0 ∨ n % 2 = 1 := by omega
      · simp [h]
      · simp [h]
    have hbits : ((List.range (width + 1)).reverse.map fun i => if n.testBit i then '1' else '0') =
        ((List.range width).reverse.map fun i => if (n / 2).testBit i then '1' else '0') ++
          [Nat.digitChar (n % 2)] := by
      rw [List.range_succ_eq_map, List.reverse_cons, List.map_append, List.map_singleton, hlast,
        ← List.map_reverse, List.map_map]
      simp only [Nat.testBit_div_two]
      rfl
    obtain ⟨zeros, hzeros⟩ := ih (n := n / 2) (by rw [Nat.pow_succ] at hn; omega)
    rw [hbits, hzeros]
    by_cases hlt : n < 2
    · -- the half is zero, and its digit is one more zero in front
      refine ⟨zeros + 1, ?_⟩
      rw [Nat.div_eq_of_lt hlt, Nat.mod_eq_of_lt hlt, Nat.toDigits_of_lt_base hlt,
        Nat.toDigits_zero, List.replicate_succ']
    · -- otherwise the half has digits of its own, and the last bit is put behind them
      refine ⟨zeros, ?_⟩
      rw [Nat.toDigits_of_base_le (by decide) (Nat.le_of_not_lt hlt), List.append_assoc]

/-- The eight digits under which a byte is entered into the journal are a spelling of it. -/
theorem exists_write_eq_binary (value : Byte) :
    ∃ s : Spelling, s.write value = (value.binary 8).toList := by
  obtain ⟨zeros, hzeros⟩ := exists_replicate_append_toDigits (by decide : 0 < 8) value.toNat_lt
  refine ⟨⟨false, false, zeros⟩, ?_⟩
  rw [Byte.binary, String.toList_ofList, hzeros]
  rfl

/-- With the mark in front of them, they are another spelling of it. -/
theorem byte?_mark_binary (value : Byte) :
    byte? ('0' :: 'b' :: (value.binary 8).toList) = some value := by
  obtain ⟨zeros, hzeros⟩ := exists_replicate_append_toDigits (by decide : 0 < 8) value.toNat_lt
  have hwrite : (Spelling.mk true false zeros).write value =
      '0' :: 'b' :: (value.binary 8).toList := by
    rw [Byte.binary, String.toList_ofList, hzeros]
    rfl
  rw [byte?_eq_some_iff, ← hwrite]
  exact denotes_write _ value

end Numeral

namespace Listing

open Numeral

variable {lines : List Line} {values : List Byte} {items : List (Spelling × Byte)}

/-- The text of some bytes, each in its own spelling on a line of its own. The last line is ended or
not. -/
def render (ended : Bool) (items : List (Spelling × Byte)) : String :=
  String.ofList (Text.joinLines (items.map fun item => item.1.write item.2) ++
    if ended then ['\n'] else [])

/-! ### Lines -/

/-- A spelling has no white space around it and no comment. -/
theorem content_write (s : Spelling) (value : Byte) : content (s.write value) = s.write value := by
  have hall : ∀ c ∈ ['0', '1', 'b', '+'], c ≠ '#' ∧ ¬Text.isWhiteSpace c := by
    simp only [List.forall_mem_cons]
    exact ⟨by decide, by decide, by decide, by decide, List.forall_mem_nil _⟩
  have hplain : ∀ c ∈ s.write value, c ≠ '#' ∧ ¬Text.isWhiteSpace c :=
    fun c hc => hall c (mem_of_mem_write hc)
  -- none of its characters is white space or begins a comment, so all of it is content
  rw [content_eq_iff]
  refine ⟨s.write value, [], (List.append_nil _).symm, fun h => (hplain _ h).1 rfl, .inl rfl,
    [], [], by simp, by simp, by simp, ?_, ?_⟩
  · intro c hc
    exact (hplain c (List.mem_of_mem_head? hc)).2
  · intro c hc
    exact (hplain c (List.mem_of_mem_getLast? hc)).2

/-- A spelling stands on a byte line. -/
theorem ofChars_write (s : Spelling) (value : Byte) : Line.ofChars (s.write value) = .byte value :=
  (reads_iff.mp (.byte (content_eq_iff.mp (content_write s value)) (denotes_write s value))).symm

/-- A rendered text reads like the listing of its bytes. -/
theorem agrees_render (ended : Bool) (items : List (Spelling × Byte)) :
    (ofText (render ended items)).Agrees ⟨items.map fun item => .byte item.2⟩ := by
  -- a spelling has no line feed, so it is on a line of its own
  have hfeed : ∀ l ∈ items.map fun item => item.1.write item.2, '\n' ∉ l := by
    intro l hl hc
    obtain ⟨item, -, rfl⟩ := List.mem_map.mp hl
    exact absurd (mem_of_mem_write hc) (by decide)
  have hlines : ofLines (items.map fun item => item.1.write item.2) =
      ⟨items.map fun item => .byte item.2⟩ := by
    simp only [ofLines, List.map_map, Function.comp_def, ofChars_write]
  rw [← hlines, render]
  cases ended with
  | false =>
    rw [if_neg Bool.false_ne_true, List.append_nil]
    exact agrees_joinLines hfeed
  | true => exact agrees_joinLines_feed hfeed

/-! ### Listings of nothing but bytes -/

/-- The bytes of byte lines are all of them. -/
theorem bytes_map_byte (values : List Byte) : bytes (values.map .byte) = values := by
  simp [bytes, List.filterMap_map, Function.comp_def, Line.byte?]

/-- No byte line is malformed. -/
theorem malformed_not_mem_map_byte (text : String) : Line.malformed text ∉ values.map .byte := by
  simp

/-- The 257th line is the first one whose byte does not fit. -/
theorem isOverflow_map_byte (h : 256 < values.length) : IsOverflow (values.map .byte) 257 := by
  refine ⟨(values.take 256).map .byte, values[256], (values.drop 257).map .byte, ?_, ?_, ?_⟩
  · rw [← List.map_cons, ← List.map_append, ← List.drop_eq_getElem_cons h, List.take_append_drop]
  · rw [bytes_map_byte, List.length_take]
    omega
  · rw [List.length_map, List.length_take]
    omega

/-- Byte lines are a program if there are at most 256 of them, and otherwise there is one defect. -/
theorem program_map_byte (values : List Byte) :
    program ⟨values.map .byte⟩ =
      if values.length ≤ 256 then .ok values else .error [⟨257, .tooLarge values.length⟩] := by
  have hsound : lineDefects (values.map .byte) = [] :=
    lineDefects_eq_nil_iff.mpr malformed_not_mem_map_byte
  split
  · next hle =>
    refine program_eq_ok_iff.mpr ⟨⟨malformed_not_mem_map_byte, ?_⟩, (bytes_map_byte values).symm⟩
    rwa [bytes_map_byte]
  · next hgt =>
    -- every line has a byte, so the 257th line is the one that does not fit
    have hlarge : 256 < (bytes (values.map .byte)).length := by
      rw [bytes_map_byte]
      omega
    refine program_eq_error_iff.mpr ⟨fun h => hgt ?_, _,
      .tooLarge hlarge (isOverflow_map_byte (by omega)), ?_⟩
    · have hfits := h.2
      rwa [bytes_map_byte] at hfits
    · rw [hsound, bytes_map_byte, List.nil_append]

/-! ### Reading back -/

/-- A rendered text denotes its bytes, if they fit. -/
theorem parseProgram_render (ended : Bool) (items : List (Spelling × Byte)) :
    parseProgram (render ended items) =
      if items.length ≤ 256 then .ok (items.map Prod.snd)
      else .error [⟨257, .tooLarge items.length⟩] := by
  have hprogram := program_map_byte (items.map Prod.snd)
  rw [List.map_map, List.length_map] at hprogram
  exact (agrees_render ended items).program.trans hprogram

/-- A program that was read fits into memory. -/
theorem length_le_of_parseProgram {text : String} {program : List Byte}
    (h : parseProgram text = .ok program) : program.length ≤ 256 := by
  obtain ⟨hvalid, rfl⟩ := program_eq_ok_iff.mp h
  exact hvalid.2

/-- **Reading undoes rendering**, however the single bytes are spelled. A memory can be rendered and
read back, and so can every program that was read. -/
theorem reading_undoes_rendering :
    (∀ ended items, parseProgram (render ended items) =
      if items.length ≤ 256 then .ok (items.map Prod.snd)
      else .error [⟨257, .tooLarge items.length⟩]) ∧
    (∀ value : Byte, ∃ s : Spelling, s.write value = (value.binary 8).toList) ∧
    (∀ ended items (m : Memory), items.map Prod.snd = m.toList →
      Memory.ofText (render ended items) = .ok m) ∧
    ∀ text program, parseProgram text = .ok program →
      ∀ ended items, items.map Prod.snd = program →
        parseProgram (render ended items) = .ok program := by
  refine ⟨parseProgram_render, exists_write_eq_binary, ?_, ?_⟩
  · intro ended items m hm
    -- a memory has 256 cells, so its listing fits into it
    have hlength : items.length ≤ 256 := by
      rw [← List.length_map (f := Prod.snd), hm, Memory.length_toList]
    rw [Memory.ofText, parseProgram_render, if_pos hlength, hm]
    exact congrArg Except.ok (Memory.ofBytes_toList m)
  · intro text program hprogram ended items hitems
    have hlength := length_le_of_parseProgram hprogram
    rw [← hitems, List.length_map] at hlength
    rw [parseProgram_render, if_pos hlength, hitems]

/-- A memory of 256 zeros, all spelled in the same way, and a program that was read with one
spelling and is rendered with another. -/
theorem reading_undoes_rendering_zero :
    let zeros := Memory.zero.toList.map fun value => (Spelling.mk true false 3, value)
    let five := [(Spelling.mk false true 0, (5 : Byte))]
    zeros.map Prod.snd = Memory.zero.toList ∧
      Memory.ofText (render true zeros) = .ok Memory.zero ∧
      parseProgram "0b0101 # five" = .ok [5] ∧ parseProgram (render false five) = .ok [5] := by
  intro zeros five
  obtain ⟨-, -, hmemory, hprogram⟩ := reading_undoes_rendering
  have hzeros : zeros.map Prod.snd = Memory.zero.toList := by
    rw [List.map_map, Function.comp_def, List.map_id']
  have hfive : parseProgram "0b0101 # five" = .ok [5] := by decide +kernel
  exact ⟨hzeros, hmemory true zeros .zero hzeros, hfive, hprogram _ [5] hfive false five rfl⟩

end Listing

end ByteMachine
