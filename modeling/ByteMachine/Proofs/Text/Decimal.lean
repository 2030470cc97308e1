import ByteMachine.Byte
import Mathlib.Data.List.Basic
import Mathlib.Data.Nat.Notation

/-!
# Decimal numbers

A number is printed with its decimal digits, without zeros in front of them (`isDecimal_toString`),
and the digits of a byte are written down as bytes of ASCII, one for each. As no digit is a line
feed, digits that are followed by line feeds can be told apart (`splitOn_decimalLines`), and each of
them is the number it was (`numberOf_digits`).
-/

namespace ByteMachine

variable {cs : List Char} {c : Char} {n : Nat}

/-- The digits of a number, without zeros in front of them. -/
structure IsDecimal (digits : List Char) (n : Nat) : Prop where
  ne_nil : digits ≠ []
  isDigit : ∀ c ∈ digits, c.isDigit
  /-- If the first digit is a zero, there are no others. -/
  eq_of_head : digits.head? = some '0' → digits = ['0']
  value : Nat.ofDigitChars 10 digits 0 = n

/-- What a number is printed with are digits. -/
theorem isDigit_of_mem_toString (h : c ∈ (toString n).toList) : c.isDigit := by
  rw [Nat.toString_eq_repr, Nat.toList_repr] at h
  exact Nat.isDigit_of_mem_toDigits (Nat.succ_pos 9) (Nat.le_refl 10) h

/-- A number that is not zero does not start with a zero. -/
theorem head?_toDigits (hn : 0 < n) : (Nat.toDigits 10 n).head? ≠ some '0' := by
  -- all but the last digit are those of the tenth part
  induction n using Nat.strongRecOn with
  | ind n ih =>
    by_cases hlt : n < 10
    · -- a single digit is zero only for the number zero
      rw [Nat.toDigits_of_lt_base hlt, List.head?_cons]
      intro hzero
      have := Nat.digitChar_eq_zero.mp (Option.some.inj hzero)
      omega
    · rw [Nat.toDigits_of_base_le (by decide) (Nat.le_of_not_lt hlt),
        List.head?_append_of_ne_nil _ Nat.toDigits_ne_nil]
      exact ih (n / 10) (by omega) (by omega)

/-- **A number is printed as its decimal digits.** -/
theorem isDecimal_toString (n : Nat) : IsDecimal (toString n).toList n where
  ne_nil := by
    rw [Nat.toString_eq_repr, Nat.toList_repr]
    exact Nat.toDigits_ne_nil
  isDigit _ := isDigit_of_mem_toString
  -- zero is the only number that starts with a zero
  eq_of_head hzero := by
    rw [Nat.toString_eq_repr, Nat.toList_repr] at hzero ⊢
    cases n with
    | zero => rfl
    | succ n => exact absurd hzero (head?_toDigits (Nat.succ_pos n))
  value := by
    rw [Nat.toString_eq_repr, Nat.toList_repr]
    exact Nat.ofDigitChars_ten_toDigits

/-! ### Digits as bytes -/

/-- Bytes of ASCII are read as the characters that they were. -/
theorem map_ofNat_toNat (h : ∀ c ∈ cs, c.isDigit) :
    (cs.map fun c => UInt8.ofNat c.toNat).map (fun b => Char.ofNat b.toNat) = cs := by
  rw [List.map_map]
  refine (List.map_congr_left fun c hc => ?_).trans (List.map_id' _)
  -- digits are below 58, so each of them fits into a byte and comes back unchanged
  have hnine : c.toNat ≤ 57 := (Char.isDigit_iff_toNat.mp (h c hc)).2
  have hlt : c.toNat < 256 := by omega
  show Char.ofNat (UInt8.ofNat c.toNat).toNat = c
  rw [UInt8.toNat_ofNat_of_lt' hlt, Char.ofNat_toNat]

/-- No digit is a line feed. -/
theorem feed_not_mem_map (h : ∀ c ∈ cs, c.isDigit) :
    0x0A ∉ cs.map fun c => UInt8.ofNat c.toNat := by
  intro hfeed
  obtain ⟨c, hc, heq⟩ := List.mem_map.mp hfeed
  -- digits lie behind the line feed, and well inside of ASCII
  obtain ⟨hzero, hnine⟩ : 48 ≤ c.toNat ∧ c.toNat ≤ 57 := Char.isDigit_iff_toNat.mp (h c hc)
  have hlt : c.toNat < 256 := by omega
  have htoNat := congrArg UInt8.toNat heq
  rw [UInt8.toNat_ofNat_of_lt' hlt] at htoNat
  have hten : (0x0A : Byte).toNat = 10 := rfl
  omega

namespace Byte

/-- The digits of a byte as bytes of ASCII. -/
def digits (b : Byte) : List Byte :=
  b.decimal.toList.map fun c => UInt8.ofNat c.toNat

/-- A byte is printed as its decimal digits. -/
theorem isDecimal_decimal (b : Byte) : IsDecimal b.decimal.toList b.toNat :=
  isDecimal_toString b.toNat

/-- The number whose digits are some bytes of ASCII. -/
def numberOf (line : List Byte) : Nat :=
  Nat.ofDigitChars 10 (line.map fun b => Char.ofNat b.toNat) 0

/-- **The digits of a byte are read as the number that it is.** -/
theorem numberOf_digits (b : Byte) : numberOf b.digits = b.toNat := by
  rw [numberOf, digits, map_ofNat_toNat b.isDecimal_decimal.isDigit]
  exact b.isDecimal_decimal.value

/-- **The lines of numbers can be told apart.** Behind the last of them is nothing. -/
theorem splitOn_decimalLines (values : List Byte) :
    (values.flatMap decimalLine).splitOn 0x0A = values.map digits ++ [[]] := by
  induction values with
  | nil => rfl
  | cons value values ih =>
    -- the first line feed stands behind the first digits, and the lines behind it are given by `ih`
    have hline : value.decimalLine = value.digits ++ [0x0A] := rfl
    have hdigits : value.digits.splitOn 0x0A = [value.digits] :=
      List.splitOn_eq_singleton (feed_not_mem_map value.isDecimal_decimal.isDigit)
    rw [List.flatMap_cons, hline, List.append_assoc, List.singleton_append,
      List.splitOn_append_cons_self, hdigits, ih]
    rfl

end Byte

end ByteMachine
