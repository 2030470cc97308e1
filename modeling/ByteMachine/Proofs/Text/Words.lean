import ByteMachine.Byte
import Mathlib.Data.UInt

/-!
# Words, and bytes among them

Most of what is printed consists of words with a blank between them. Whoever takes such a text to
pieces at its blanks gets the words back: a blank separates the words in front of it from those
behind it (`Text.words_append_blank`), and what holds no blank is one word
(`Text.words_of_not_mem`).

A word of two hexadecimal digits stands for a byte (`Byte.ofHex?`), and the one that is printed for
a byte stands for this byte (`Byte.ofHex?_hex`). So from a text in which all other words are longer
or shorter, the bytes can be picked out.
-/

namespace ByteMachine

namespace Text

variable {before word after : List Char}

/-- What stands between the blanks of a text. There is one word more than there are blanks. -/
def words (text : List Char) : List (List Char) :=
  text.splitOn ' '

/-- A blank separates the words in front of it from those behind it. -/
theorem words_append_blank (before after : List Char) :
    words (before ++ ' ' :: after) = words before ++ words after :=
  List.splitOn_append_cons_self before after

/-- What holds no blank is one word. -/
theorem words_of_not_mem (h : ' ' ∉ word) : words word = [word] :=
  List.splitOn_eq_singleton h

/-- The first word stands in front of the first blank. -/
theorem head?_words (h : ' ' ∉ word) (after : List Char) :
    (words (word ++ ' ' :: after)).head? = some word := by
  rw [words_append_blank, words_of_not_mem h]
  rfl

/-- The last word stands behind the last blank. -/
theorem getLast?_words (before : List Char) (h : ' ' ∉ word) :
    (words (before ++ ' ' :: word)).getLast? = some word := by
  rw [words_append_blank, words_of_not_mem h, List.getLast?_concat]

/-- The words that were put together with blanks between them. -/
theorem words_intercalate {texts : List String} (h : ∀ t ∈ texts, ' ' ∉ t.toList)
    (hne : texts ≠ []) : words (" ".intercalate texts).toList = texts.map String.toList := by
  rw [String.toList_intercalate]
  -- the words are the texts themselves, as no blank is in any of them
  refine List.splitOn_intercalate ' ' ?_ (mt List.map_eq_nil_iff.mp hne)
  intro word hword
  obtain ⟨t, ht, rfl⟩ := List.mem_map.mp hword
  exact h t ht

end Text

/-! ### Hexadecimal digits -/

/-- The value of an upper-case hexadecimal digit. -/
def hexDigit? (c : Char) : Option Nat :=
  if '0' ≤ c ∧ c ≤ '9' then some (c.toNat - '0'.toNat)
  else if 'A' ≤ c ∧ c ≤ 'F' then some (10 + (c.toNat - 'A'.toNat))
  else none

/-- A digit that was printed can be read. -/
theorem hexDigit?_hexDigit : ∀ n < 16, hexDigit? (hexDigit n) = some n := by decide

namespace Byte

/-- The byte that two hexadecimal digits denote. -/
def ofHex? : List Char → Option Byte
  | [high, low] => do
    let h ← hexDigit? high
    let l ← hexDigit? low
    return UInt8.ofNat (16 * h + l)
  | _ => none

/-- The upper half of a byte is a digit. -/
theorem div_lt_sixteen (b : Byte) : b.toNat / 16 < 16 :=
  Nat.div_lt_of_lt_mul b.toNat_lt

/-- The lower half of a byte is a digit. -/
theorem mod_lt_sixteen (b : Byte) : b.toNat % 16 < 16 :=
  Nat.mod_lt _ (Nat.succ_pos 15)

/-- **The digits of a byte denote it.** -/
theorem ofHex?_hex (b : Byte) : ofHex? b.hex.toList = some b := by
  -- the two digits are the quotient and the remainder
  have hparts : 16 * (b.toNat / 16) + b.toNat % 16 = b.toNat := Nat.div_add_mod b.toNat 16
  rw [hex, String.toList_ofList, ofHex?, hexDigit?_hexDigit _ b.div_lt_sixteen,
    hexDigit?_hexDigit _ b.mod_lt_sixteen]
  show some (UInt8.ofNat (16 * (b.toNat / 16) + b.toNat % 16)) = some b
  rw [hparts, UInt8.ofNat_toNat]

/-- A byte is printed with hexadecimal digits only. -/
theorem isSome_hexDigit?_of_mem_hex {b : Byte} {c : Char} (h : c ∈ b.hex.toList) :
    (hexDigit? c).isSome := by
  rw [hex, String.toList_ofList, List.mem_cons, List.mem_singleton] at h
  obtain rfl | rfl := h
  · rw [hexDigit?_hexDigit _ b.div_lt_sixteen, Option.isSome_some]
  · rw [hexDigit?_hexDigit _ b.mod_lt_sixteen, Option.isSome_some]

/-- There are no blanks within a byte. -/
theorem blank_not_mem_hex (b : Byte) : ' ' ∉ b.hex.toList := by
  intro hblank
  -- a blank would be a digit
  exact absurd (isSome_hexDigit?_of_mem_hex hblank) (by decide)

/-- Bytes with blanks between them are words. -/
theorem words_hex {values : List Byte} (h : values ≠ []) :
    Text.words (" ".intercalate (values.map hex)).toList = values.map fun b => b.hex.toList := by
  have hblank : ∀ t ∈ values.map hex, ' ' ∉ t.toList := by
    intro t ht
    obtain ⟨b, -, rfl⟩ := List.mem_map.mp ht
    exact b.blank_not_mem_hex
  rw [Text.words_intercalate hblank (mt List.map_eq_nil_iff.mp h), List.map_map]
  rfl

/-- The digits of all bytes denote them. -/
theorem mapM_ofHex?_hex (values : List Byte) :
    (values.map fun b => b.hex.toList).mapM ofHex? = some values := by
  have hread : (ofHex? ∘ fun b : Byte => b.hex.toList) = fun b => pure b := by
    funext b
    rw [Function.comp_apply, b.ofHex?_hex, Option.pure_def]
  rw [List.mapM_map, hread, List.mapM_pure, List.map_id', Option.pure_def]

/-- Bytes with blanks between them can be read back. -/
theorem filterMap_ofHex?_words (values : List Byte) :
    (Text.words (" ".intercalate (values.map hex)).toList).filterMap ofHex? = values := by
  by_cases hvalues : values = []
  · -- without bytes there is one word, and it is empty
    rw [hvalues]
    rfl
  · rw [words_hex hvalues, List.filterMap_map]
    calc values.filterMap (ofHex? ∘ fun b => b.hex.toList)
      _ = values.filterMap some := List.filterMap_congr fun b _ => b.ofHex?_hex
      _ = values := List.filterMap_some

end Byte

end ByteMachine
