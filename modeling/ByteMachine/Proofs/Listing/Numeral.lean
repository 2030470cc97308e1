import ByteMachine.Listing.Numeral
import Mathlib.Data.Nat.Digits.Defs

/-!
# The grammar of binary numerals

`Numeral.byte?` strips the mark and the sign from a numeral and then reads digits into a single
byte, giving up at the first digit with which the number would outgrow it. This module compares it
to a grammar that knows nothing of the width of a byte: a numeral is an optional mark, an optional
sign and at least one binary digit, and it denotes the natural number that its digits stand for
(`Denotes`).

The two agree on every text (`byte?_eq_some_iff`): the byte read is the number denoted, and nothing
is read exactly when the text is no numeral or denotes more than 255. What carries the proof is that
the number only grows from digit to digit, so a prefix that does not fit into a byte rules out the
whole (`foldlM_continueByte_eq_some_iff`), while zeros in front change nothing.
-/

namespace ByteMachine.Numeral

/-- The text is the numeral of a number: at most one mark, then at most one plus sign, then binary
digits with the most significant one first. -/
inductive Denotes : List Char → Nat → Prop where
  | intro {mark sign : List Char} {digits : List Nat} (hmark : mark ∈ [[], ['0', 'b']])
      (hsign : sign ∈ [[], ['+']]) (hne : digits ≠ []) (hdigits : ∀ d ∈ digits, d < 2) :
      Denotes (mark ++ sign ++ digits.map Nat.digitChar) (Nat.ofDigits 2 digits.reverse)

/-! ### Digits -/

/-- The digits are `0` and `1`. -/
theorem digit?_eq_some_iff {c : Char} {d : Nat} :
    digit? c = some d ↔ d < 2 ∧ c = Nat.digitChar d := by
  unfold digit?
  constructor
  · intro h
    split at h
    · next hc => cases h; exact ⟨by decide, hc⟩
    · split at h
      · next hc => cases h; exact ⟨by decide, hc⟩
      · cases h
  · rintro ⟨hd, rfl⟩
    obtain rfl | rfl : d = 0 ∨ d = 1 := by omega
    · rfl
    · rfl

/-- A digit is appended if the number still fits into a byte. -/
theorem continueByte_of_digit {b : Byte} {c : Char} {d : Nat} (h : digit? c = some d) :
    continueByte b c =
      if 2 * b.toNat + d < 256 then some (UInt8.ofNat (2 * b.toNat + d)) else none := by
  unfold continueByte
  rw [h]
  rfl

/-- A number is continued to the one that its digits and the new digit stand for together. -/
theorem continueByte_eq_some_iff {b next : Byte} {c : Char} :
    continueByte b c = some next ↔
      ∃ d < 2, c = Nat.digitChar d ∧ next.toNat = 2 * b.toNat + d := by
  constructor
  · intro h
    cases hc : digit? c with
    | none =>
      -- a character that is no digit continues nothing
      unfold continueByte at h
      rw [hc] at h
      cases h
    | some d =>
      obtain ⟨hd, hchar⟩ := digit?_eq_some_iff.mp hc
      rw [continueByte_of_digit hc] at h
      split at h
      · next hlt =>
        cases h
        exact ⟨d, hd, hchar, UInt8.toNat_ofNat_of_lt' hlt⟩
      · cases h
  · rintro ⟨d, hd, hchar, hnext⟩
    have hlt : 2 * b.toNat + d < 256 := hnext ▸ next.toNat_lt
    rw [continueByte_of_digit (digit?_eq_some_iff.mpr ⟨hd, hchar⟩), if_pos hlt, ← hnext,
      UInt8.ofNat_toNat]

/-- Reading digits behind a number `b` that was read already. The value is what the digits in front
and these ones stand for together; it is never cut, so a byte comes out only if it fits. -/
theorem foldlM_continueByte_eq_some_iff {cs : List Char} {b c : Byte} :
    cs.foldlM continueByte b = some c ↔
      ∃ digits : List Nat, (∀ d ∈ digits, d < 2) ∧ cs = digits.map Nat.digitChar ∧
        c.toNat = Nat.ofDigits 2 digits.reverse + 2 ^ digits.length * b.toNat := by
  -- by induction on the digits, for whatever number was read in front of them
  induction cs generalizing b with
  | nil =>
    constructor
    · intro h
      cases h
      exact ⟨[], by simp⟩
    · rintro ⟨digits, -, hcs, hvalue⟩
      obtain rfl : digits = [] := List.map_eq_nil_iff.mp hcs.symm
      -- without a digit the number is the one that was read before
      have hcb : c = b := UInt8.toNat_inj.mp (by simpa using hvalue)
      rw [hcb]
      rfl
  | cons x cs ih =>
    rw [List.foldlM_cons]
    -- the first digit is the most significant one of all that follow
    have hvalue (d : Nat) (digits : List Nat) :
        Nat.ofDigits 2 (d :: digits).reverse + 2 ^ (d :: digits).length * b.toNat =
          Nat.ofDigits 2 digits.reverse + 2 ^ digits.length * (2 * b.toNat + d) := by
      rw [List.reverse_cons, Nat.ofDigits_append, Nat.ofDigits_singleton, List.length_reverse,
        List.length_cons]
      ring
    constructor
    · intro h
      obtain ⟨next, hnext, hrest⟩ := Option.bind_eq_some_iff.mp h
      obtain ⟨d, hd, rfl, hstep⟩ := continueByte_eq_some_iff.mp hnext
      obtain ⟨digits, hdigits, rfl, hc⟩ := ih.mp hrest
      refine ⟨d :: digits, List.forall_mem_cons.mpr ⟨hd, hdigits⟩, rfl, ?_⟩
      rw [hc, hvalue, hstep]
    · rintro ⟨_ | ⟨d, digits⟩, hdigits, hcs, hc⟩
      · cases hcs
      · rw [List.map_cons, List.cons.injEq] at hcs
        obtain ⟨rfl, rfl⟩ := hcs
        obtain ⟨hd, hdigits⟩ := List.forall_mem_cons.mp hdigits
        rw [hvalue] at hc
        -- the whole fits into a byte, so what was read first does
        have hfits : 2 * b.toNat + d < 256 := by
          have hpos : 0 < 2 ^ digits.length := Nat.two_pow_pos _
          have hle := Nat.le_mul_of_pos_left (2 * b.toNat + d) hpos
          have hlt := c.toNat_lt
          omega
        have hstep : (UInt8.ofNat (2 * b.toNat + d)).toNat = 2 * b.toNat + d :=
          UInt8.toNat_ofNat_of_lt' hfits
        have hnext : continueByte b (Nat.digitChar d) = some (UInt8.ofNat (2 * b.toNat + d)) :=
          continueByte_eq_some_iff.mpr ⟨d, hd, rfl, hstep⟩
        refine Option.bind_eq_some_iff.mpr ⟨_, hnext, ih.mpr ⟨digits, hdigits, rfl, ?_⟩⟩
        rw [hc, hstep]

/-- One digit or more are read as the number that they stand for, if that fits into a byte. -/
theorem ofDigits?_eq_some_iff {cs : List Char} {b : Byte} :
    ofDigits? cs = some b ↔
      ∃ digits : List Nat, digits ≠ [] ∧ (∀ d ∈ digits, d < 2) ∧
        cs = digits.map Nat.digitChar ∧ b.toNat = Nat.ofDigits 2 digits.reverse := by
  cases cs with
  | nil =>
    simp only [ofDigits?, reduceCtorEq, false_iff]
    rintro ⟨digits, hne, -, hcs, -⟩
    exact hne (List.map_eq_nil_iff.mp hcs.symm)
  | cons c cs =>
    rw [ofDigits?, foldlM_continueByte_eq_some_iff]
    · constructor
      · rintro ⟨digits, hdigits, hcs, hvalue⟩
        refine ⟨digits, ?_, hdigits, hcs, by simpa using hvalue⟩
        rintro rfl
        cases hcs
      · rintro ⟨digits, -, hdigits, hcs, hvalue⟩
        exact ⟨digits, hdigits, hcs, by simpa using hvalue⟩
    · exact List.cons_ne_nil c cs

/-! ### Mark and sign -/

/-- A mark is taken off if there is one. -/
theorem exists_mark (cs : List Char) :
    ∃ mark ∈ [[], ['0', 'b']], cs = mark ++ withoutMark cs := by
  unfold withoutMark
  split
  · next rest => exact ⟨['0', 'b'], by simp, rfl⟩
  · exact ⟨[], by simp, rfl⟩

/-- A sign is taken off if there is one. -/
theorem exists_sign (cs : List Char) :
    ∃ sign ∈ [[], ['+']], cs = sign ++ withoutSign cs := by
  unfold withoutSign
  split
  · next rest => exact ⟨['+'], by simp, rfl⟩
  · exact ⟨[], by simp, rfl⟩

/-- Digits look neither like a mark nor like a sign, so nothing but the mark and the sign is
stripped from a numeral. -/
theorem strip_append_digits {mark sign : List Char} {digits : List Nat}
    (hmark : mark ∈ [[], ['0', 'b']]) (hsign : sign ∈ [[], ['+']])
    (hdigits : ∀ d ∈ digits, d < 2) :
    withoutSign (withoutMark (mark ++ sign ++ digits.map Nat.digitChar)) =
      digits.map Nat.digitChar := by
  -- the marks have a `b` and the signs a `+`, and these are no digits
  have hchars : ∀ c ∈ digits.map Nat.digitChar, c = '0' ∨ c = '1' := by
    intro c hc
    obtain ⟨d, hd, rfl⟩ := List.mem_map.mp hc
    obtain rfl | rfl : d = 0 ∨ d = 1 := by
      have := hdigits d hd
      omega
    · exact .inl rfl
    · exact .inr rfl
  generalize digits.map Nat.digitChar = cs at hchars
  have hnosign : withoutSign cs = cs := by
    unfold withoutSign
    split
    · next rest => exact absurd (hchars '+' (List.mem_cons_self ..)) (by decide)
    · rfl
  have hnomark : withoutMark cs = cs := by
    unfold withoutMark
    split
    · next rest => exact absurd (hchars 'b' (by simp)) (by decide)
    · rfl
  simp only [List.mem_cons, List.not_mem_nil, or_false] at hmark hsign
  -- with a mark or without, and with a sign or without
  rcases hmark with rfl | rfl <;> rcases hsign with rfl | rfl
  · exact (congrArg withoutSign hnomark).trans hnosign
  · rfl
  · exact hnosign
  · rfl

/-- **Reading a byte agrees with the grammar of numerals.** -/
theorem byte?_eq_some_iff {cs : List Char} {b : Byte} :
    byte? cs = some b ↔ Denotes cs b.toNat := by
  rw [byte?, ofDigits?_eq_some_iff]
  constructor
  · rintro ⟨digits, hne, hdigits, hcs, hvalue⟩
    obtain ⟨mark, hmark, hstripped⟩ := exists_mark cs
    obtain ⟨sign, hsign, hunsigned⟩ := exists_sign (withoutMark cs)
    -- what was taken off, put in front again, is the whole text
    have hall : cs = mark ++ sign ++ digits.map Nat.digitChar := by
      rw [List.append_assoc, ← hcs, ← hunsigned, ← hstripped]
    rw [hvalue, hall]
    exact .intro hmark hsign hne hdigits
  · intro h
    generalize hn : b.toNat = n at h
    cases h with
    | @intro mark sign digits hmark hsign hne hdigits =>
      exact ⟨digits, hne, hdigits, strip_append_digits hmark hsign hdigits, rfl⟩

/-- Nothing is read exactly when the text is no numeral of a number below 256. -/
theorem byte?_eq_none_iff {cs : List Char} : byte? cs = none ↔ ∀ n ≤ 255, ¬Denotes cs n := by
  rw [Option.eq_none_iff_forall_ne_some]
  constructor
  · intro h n hn hdenotes
    have hlt : n < 256 := by omega
    have hbyte : (UInt8.ofNat n).toNat = n := UInt8.toNat_ofNat_of_lt' hlt
    refine h (.ofNat n) (byte?_eq_some_iff.mpr ?_)
    rw [hbyte]
    exact hdenotes
  · intro h b hb
    -- a byte is below 256
    have hlt := b.toNat_lt
    exact h b.toNat (by omega) (byte?_eq_some_iff.mp hb)

end ByteMachine.Numeral
