import ByteMachine.Text.WhiteSpace
import Mathlib.Data.List.DropRight

/-!
# Trimming

`Text.trim` drops white space from the front and then, on the reversed text, from the end. What
comes out is the only part of the text that has nothing but white space around it and neither
starts nor ends with white space (`trim_eq_iff`). A text of nothing but white space is trimmed to
the empty text.
-/

namespace ByteMachine.Text

/-- `c` is `cs` without the white space around it. -/
def IsTrimmed (cs c : List Char) : Prop :=
  ∃ left right, cs = left ++ c ++ right ∧
    (∀ x ∈ left, isWhiteSpace x) ∧ (∀ x ∈ right, isWhiteSpace x) ∧
    (∀ x ∈ c.head?, ¬isWhiteSpace x) ∧ (∀ x ∈ c.getLast?, ¬isWhiteSpace x)

/-- White space in front of something else is dropped, and nothing more. -/
theorem dropWhile_isWhiteSpace_append {left rest : List Char} (hleft : ∀ x ∈ left, isWhiteSpace x)
    (hrest : ∀ x ∈ rest.head?, ¬isWhiteSpace x) :
    (left ++ rest).dropWhile isWhiteSpace = rest := by
  rw [List.dropWhile_append_of_pos hleft]
  cases rest with
  | nil => rfl
  | cons x rest => exact List.dropWhile_cons_of_neg (hrest x rfl)

/-- White space behind something else is dropped, and nothing more. -/
theorem trimEnd_append {c right : List Char} (hright : ∀ x ∈ right, isWhiteSpace x)
    (hc : ∀ x ∈ c.getLast?, ¬isWhiteSpace x) : trimEnd (c ++ right) = c := by
  -- the end of a text is the front of the reversed one
  rw [trimEnd, List.reverse_append, dropWhile_isWhiteSpace_append, List.reverse_reverse]
  · intro x hx
    exact hright x (List.mem_reverse.mp hx)
  · rwa [List.head?_reverse]

/-- There is only one way to take the white space away. -/
theorem trim_of_isTrimmed {cs c : List Char} (h : IsTrimmed cs c) : trim cs = c := by
  obtain ⟨left, right, rfl, hleft, hright, hhead, hlast⟩ := h
  cases c with
  | nil =>
    -- all of the text is white space, so already the front takes everything
    have hall : ∀ x ∈ left ++ [] ++ right, isWhiteSpace x := by
      intro x hx
      rw [List.append_nil] at hx
      exact (List.mem_append.mp hx).elim (hleft x) (hright x)
    rw [trim, List.dropWhile_eq_nil_iff.mpr hall]
    rfl
  | cons x c =>
    have hrest : ∀ y ∈ (x :: c ++ right).head?, ¬isWhiteSpace y := hhead
    rw [trim, List.append_assoc, dropWhile_isWhiteSpace_append hleft hrest,
      trimEnd_append hright hlast]

/-- What trimming leaves is the text without the white space around it. -/
theorem isTrimmed_trim (cs : List Char) : IsTrimmed cs (trim cs) := by
  have htrim : trim cs = (cs.dropWhile isWhiteSpace).rdropWhile isWhiteSpace := rfl
  rw [htrim]
  refine ⟨cs.takeWhile isWhiteSpace, (cs.dropWhile isWhiteSpace).rtakeWhile isWhiteSpace,
    ?_, ?_, ?_, ?_, ?_⟩
  · rw [List.append_assoc, List.rdropWhile_append_rtakeWhile, List.takeWhile_append_dropWhile]
  · exact fun x hx => List.mem_takeWhile_imp hx
  · exact fun x hx => List.mem_rtakeWhile_imp hx
  · -- what is left starts as the text does behind the white space in front
    intro x hx
    have hmiddle := List.head?_dropWhile_not isWhiteSpace cs
    obtain ⟨more, hmore⟩ := List.rdropWhile_prefix isWhiteSpace
      (l := cs.dropWhile isWhiteSpace)
    obtain ⟨rest, hrest⟩ := List.head?_eq_some_iff.mp hx
    rw [← hmore, hrest] at hmiddle
    simpa using hmiddle
  · -- the end was trimmed last, so nothing is to be said about the front
    intro x hx
    obtain ⟨hne, rfl⟩ := List.mem_getLast?_eq_getLast hx
    exact List.rdropWhile_last_not isWhiteSpace _ hne

/-- More white space around a text is taken away with the rest. -/
theorem IsTrimmed.surround {cs c left right : List Char} (h : IsTrimmed cs c)
    (hleft : ∀ x ∈ left, isWhiteSpace x) (hright : ∀ x ∈ right, isWhiteSpace x) :
    IsTrimmed (left ++ cs ++ right) c := by
  obtain ⟨left', right', rfl, hleft', hright', hends⟩ := h
  refine ⟨left ++ left', right' ++ right, by simp, ?_, ?_, hends⟩
  · intro x hx
    exact (List.mem_append.mp hx).elim (hleft x) (hleft' x)
  · intro x hx
    exact (List.mem_append.mp hx).elim (hright' x) (hright x)

/-- **Trimming leaves the text without the white space around it.** -/
theorem trim_eq_iff {cs c : List Char} : trim cs = c ↔ IsTrimmed cs c := by
  refine ⟨?_, trim_of_isTrimmed⟩
  rintro rfl
  exact isTrimmed_trim cs

end ByteMachine.Text
