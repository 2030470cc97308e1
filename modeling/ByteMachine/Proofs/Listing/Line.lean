import ByteMachine.Listing.Line
import ByteMachine.Proofs.Listing.Numeral
import ByteMachine.Proofs.Text.WhiteSpace

/-!
# The grammar of lines

A line is classified by cutting the comment off, trimming what is left and trying to read it as a
numeral. This module says what the classes are without saying how they are found (`Line.Reads`):
a line reads as blank, as a byte or as malformed according to the trimmed text in front of its first
`#` (`IsContent`) and to the grammar of numerals. Every line has exactly one class, and it is the
one found (`reads_iff`).
-/

namespace ByteMachine.Listing

/-- `c` is what counts of a line: the text in front of the first `#`, without the white space around
it. -/
def IsContent (line c : List Char) : Prop :=
  ∃ code comment, line = code ++ comment ∧ '#' ∉ code ∧
    (comment = [] ∨ ∃ rest, comment = '#' :: rest) ∧ Text.IsTrimmed code c

/-- The class of a line, in terms of the grammar of numerals. -/
inductive Line.Reads (line : List Char) : Line → Prop where
  | blank (h : IsContent line []) : Reads line .blank
  | byte {c : List Char} {value : Byte} (h : IsContent line c)
      (hvalue : Numeral.Denotes c value.toNat) : Reads line (.byte value)
  | malformed {c : List Char} (h : IsContent line c) (hne : c ≠ [])
      (hnone : ∀ n ≤ 255, ¬Numeral.Denotes c n) : Reads line (.malformed (String.ofList c))

/-- The text in front of a comment is what stands in front of the first `#`. -/
theorem takeWhile_of_comment {code comment : List Char} (hcode : '#' ∉ code)
    (hcomment : comment = [] ∨ ∃ rest, comment = '#' :: rest) :
    (code ++ comment).takeWhile (· != '#') = code := by
  have hall : ∀ x ∈ code, (x != '#') = true := by
    intro x hx
    rw [bne_iff_ne]
    rintro rfl
    exact hcode hx
  -- all of the code is taken, and the comment begins with a `#` or there is none
  rw [List.takeWhile_append_of_pos hall]
  rcases hcomment with rfl | ⟨rest, rfl⟩
  · exact List.append_nil code
  · exact List.append_nil code

/-- What is computed as the content is what counts of the line. -/
theorem isContent_content (line : List Char) : IsContent line (content line) := by
  refine ⟨line.takeWhile (· != '#'), line.dropWhile (· != '#'),
    List.takeWhile_append_dropWhile.symm, ?_, ?_, Text.isTrimmed_trim _⟩
  · intro h
    exact absurd (List.mem_takeWhile_imp h) (by decide)
  · -- where the code ends, there is a `#` or the line ends as well
    have hhead := List.head?_dropWhile_not (· != '#') line
    cases hrest : line.dropWhile (· != '#') with
    | nil => exact .inl rfl
    | cons x rest =>
      rw [hrest] at hhead
      have hx : x = '#' := by simpa using hhead
      exact .inr ⟨rest, by rw [hx]⟩

/-- The content of a line is what counts of it. -/
theorem content_eq_iff {line c : List Char} : content line = c ↔ IsContent line c := by
  constructor
  · rintro rfl
    exact isContent_content line
  · rintro ⟨code, comment, rfl, hcode, hcomment, htrimmed⟩
    rw [content, takeWhile_of_comment hcode hcomment, Text.trim_of_isTrimmed htrimmed]

/-- Every numeral has a digit. -/
theorem ne_nil_of_denotes {c : List Char} {n : Nat} (h : Numeral.Denotes c n) : c ≠ [] := by
  cases h with
  | intro hmark hsign hne hdigits =>
    intro hnil
    exact hne (List.map_eq_nil_iff.mp (List.append_eq_nil_iff.mp hnil).2)

/-- The class that is found is one that the grammar allows. -/
theorem reads_ofChars (line : List Char) : Line.Reads line (.ofChars line) := by
  have hcontent := isContent_content line
  unfold Line.ofChars Line.ofContent
  split
  · next hnil =>
    rw [hnil] at hcontent
    exact .blank hcontent
  · next hne =>
    split
    · next value hvalue => exact .byte hcontent (Numeral.byte?_eq_some_iff.mp hvalue)
    · next hnone => exact .malformed hcontent hne (Numeral.byte?_eq_none_iff.mp hnone)

/-- **Every line has exactly one class**, and it is the one that is found. -/
theorem reads_iff {line : List Char} {l : Line} : Line.Reads line l ↔ l = .ofChars line := by
  constructor
  · -- the grammar determines the content, and the content determines the class
    intro h
    cases h with
    | blank h =>
      rw [Line.ofChars, content_eq_iff.mpr h]
      rfl
    | byte h hvalue =>
      rw [Line.ofChars, content_eq_iff.mpr h, Line.ofContent, if_neg (ne_nil_of_denotes hvalue),
        Numeral.byte?_eq_some_iff.mpr hvalue]
    | malformed h hne hnone =>
      rw [Line.ofChars, content_eq_iff.mpr h, Line.ofContent, if_neg hne,
        Numeral.byte?_eq_none_iff.mpr hnone]
  · rintro rfl
    exact reads_ofChars line

end ByteMachine.Listing
