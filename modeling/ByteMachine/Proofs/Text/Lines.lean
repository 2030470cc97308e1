import ByteMachine.Text.Lines

/-!
# Lines and the pieces between line feeds

`Text.lines` finds the lines of a text in one pass, looking one character ahead for the carriage
return that belongs to the end of a line. This module ties it to the rule it implements: cut the
text at every line feed, drop one carriage return at the end of every piece that a line feed ended,
and leave the last piece out if it is empty (`linesOfPieces`).

Two facts determine the lines of every text, and all else is derived from them.

* `lines_append_feed`: what stands in front of the first line feed is the first line, without one
  carriage return at its end; the other lines are those of the text behind the line feed.
* `lines_eq_singleton`: a text without line feeds is one line unless it is empty.

Since every text is cut in this way, every text is also put together from lines (`joinLines`,
`exists_eq_joinLines`), and its lines are then those it was put together from, up to the carriage
returns and an empty one at the end (`lines_joinLines`).
-/

namespace ByteMachine.Text

/-- A piece of text that a line feed ended, without one carriage return in front of that line
feed. -/
def withoutReturn (piece : List Char) : List Char :=
  if piece.getLast? = some '\r' then piece.dropLast else piece

/-- The lines of a text, given by the pieces between its line feeds. Every piece but the last one
was ended by a line feed; the last one is no line if it is empty. -/
def linesOfPieces : List (List Char) → List (List Char)
  | [] => []
  | [last] => if last = [] then [] else [last]
  | piece :: next :: more => withoutReturn piece :: linesOfPieces (next :: more)

/-- A carriage return belongs to the end of a line only if it is the last character in front of the
line feed. -/
theorem withoutReturn_cons {c : Char} {piece : List Char} (h : c = '\r' → piece ≠ []) :
    withoutReturn (c :: piece) = c :: withoutReturn piece := by
  cases piece with
  | nil =>
    have hc : c ≠ '\r' := fun hc => h hc rfl
    simp [withoutReturn, hc]
  | cons d more =>
    unfold withoutReturn
    rw [List.getLast?_cons_cons, List.dropLast_cons_cons]
    split <;> rfl

/-- Away from the end of a line, a character is the first one of the first line. -/
theorem lines_cons {c : Char} {rest : List Char} (hfeed : c ≠ '\n')
    (hreturn : c = '\r' → ∀ more, rest ≠ '\n' :: more) :
    lines (c :: rest) = match lines rest with
      | [] => [[c]]
      | line :: more => (c :: line) :: more :=
  lines.eq_4 c rest (fun more hc hrest => hreturn hc more hrest) hfeed

/-- The first line of a text is what stands in front of its first line feed. -/
theorem lines_append_feed {piece : List Char} (h : '\n' ∉ piece) (rest : List Char) :
    lines (piece ++ '\n' :: rest) = withoutReturn piece :: lines rest := by
  induction piece with
  | nil => rw [List.nil_append, lines.eq_3]; rfl
  | cons c piece ih =>
    obtain ⟨hc, hpiece⟩ : c ≠ '\n' ∧ '\n' ∉ piece := by
      rw [List.mem_cons, not_or] at h
      exact ⟨fun hc => h.1 hc.symm, h.2⟩
    by_cases hreturn : c = '\r' ∧ piece = []
    · -- the carriage return right in front of the line feed goes with it
      obtain ⟨rfl, rfl⟩ := hreturn
      rfl
    · rw [not_and] at hreturn
      rw [List.cons_append, lines_cons hc, ih hpiece, withoutReturn_cons hreturn]
      -- behind `c` comes no line feed at once: it could only end the piece or lie within it
      intro hc' more hmore
      cases piece with
      | nil => exact hreturn hc' rfl
      | cons d piece =>
        rw [List.cons_append, List.cons.injEq] at hmore
        exact hpiece (List.mem_cons.mpr (.inl hmore.1.symm))

/-- A text without line feeds is one line, unless it is empty. -/
theorem lines_eq_singleton {piece : List Char} (h : '\n' ∉ piece) (hne : piece ≠ []) :
    lines piece = [piece] := by
  induction piece with
  | nil => exact absurd rfl hne
  | cons c piece ih =>
    rw [List.mem_cons, not_or] at h
    have hmore : c = '\r' → ∀ more, piece ≠ '\n' :: more := by
      rintro - more rfl
      exact h.2 (List.mem_cons_self ..)
    rw [lines_cons (fun hc => h.1 hc.symm) hmore]
    cases piece with
    | nil => rw [lines.eq_1]
    | cons d piece => rw [ih h.2 (List.cons_ne_nil d piece)]

/-- **The lines of a text are given by the pieces between its line feeds.** -/
theorem lines_eq_linesOfPieces (text : List Char) :
    lines text = linesOfPieces (text.splitOn '\n') := by
  induction hn : text.length using Nat.strongRecOn generalizing text with
  | ind n ih =>
    by_cases hfeed : '\n' ∈ text
    · -- the text in front of the first line feed is one piece, and the rest is shorter
      obtain ⟨piece, rest, rfl, hpiece⟩ := List.eq_append_cons_of_mem hfeed
      have hlength : rest.length < n := by
        rw [← hn, List.length_append, List.length_cons]
        omega
      obtain ⟨next, more, hmore⟩ := List.exists_cons_of_ne_nil (List.splitOn_ne_nil '\n' rest)
      rw [lines_append_feed hpiece, List.splitOn_append_cons_self_of_not_mem hpiece, hmore,
        ih _ hlength rest rfl, hmore]
      rfl
    · rw [List.splitOn_eq_singleton hfeed, linesOfPieces]
      split
      · next hnil => rw [hnil]; rfl
      · next hne => exact lines_eq_singleton hfeed hne

/-- Behind a text whose last line is ended, another text begins with a line of its own. -/
theorem lines_append {text : List Char} (h : text = [] ∨ text.getLast? = some '\n')
    (more : List Char) : lines (text ++ more) = lines text ++ lines more := by
  induction hn : text.length using Nat.strongRecOn generalizing text with
  | ind n ih =>
    obtain rfl | hlast := h
    · rw [List.nil_append, lines.eq_1, List.nil_append]
    · -- both sides begin with the first line, and what is behind it is shorter
      obtain ⟨piece, rest, rfl, hpiece⟩ := List.eq_append_cons_of_mem (List.mem_of_getLast? hlast)
      have hlength : rest.length < n := by
        rw [← hn, List.length_append, List.length_cons]
        omega
      have hrest : rest = [] ∨ rest.getLast? = some '\n' := by
        cases rest with
        | nil => exact .inl rfl
        | cons c rest => exact .inr (by simpa using hlast)
      rw [List.append_assoc, List.cons_append, lines_append_feed hpiece, lines_append_feed hpiece,
        ih _ hlength hrest rfl, List.cons_append]

/-! ### Putting lines together -/

/-- The text with these lines: between any two of them stands a line feed. -/
def joinLines (ls : List (List Char)) : List Char :=
  ['\n'].intercalate ls

/-- A single line stands without line feeds. -/
@[simp] theorem joinLines_singleton (l : List Char) : joinLines [l] = l :=
  List.intercalate_singleton

/-- A line feed separates the first line from the others. -/
theorem joinLines_cons_cons (l next : List Char) (more : List (List Char)) :
    joinLines (l :: next :: more) = l ++ '\n' :: joinLines (next :: more) := by
  rw [joinLines, List.intercalate_cons_cons, List.append_assoc]
  rfl

/-- To put an empty line behind the last one is to end the last one. -/
theorem joinLines_concat_nil {ls : List (List Char)} (h : ls ≠ []) :
    joinLines (ls ++ [[]]) = joinLines ls ++ ['\n'] := by
  induction ls with
  | nil => exact absurd rfl h
  | cons l more ih =>
    cases more with
    | nil =>
      rw [List.singleton_append, joinLines_cons_cons, joinLines_singleton, joinLines_singleton]
    | cons next more =>
      have hmore := ih (List.cons_ne_nil next more)
      rw [List.cons_append, List.cons_append, joinLines_cons_cons, ← List.cons_append, hmore,
        joinLines_cons_cons, List.append_assoc, List.cons_append]

/-- Every text is put together from lines. -/
theorem exists_eq_joinLines (text : List Char) :
    ∃ ls ≠ [], (∀ l ∈ ls, '\n' ∉ l) ∧ text = joinLines ls := by
  induction text with
  | nil => exact ⟨[[]], List.cons_ne_nil [] [], by simp, rfl⟩
  | cons c text ih =>
    obtain ⟨ls, hne, hls, rfl⟩ := ih
    obtain ⟨l, more, rfl⟩ := List.exists_cons_of_ne_nil hne
    obtain ⟨hl, hmore⟩ := List.forall_mem_cons.mp hls
    by_cases hc : c = '\n'
    · -- a line feed puts an empty line in front of the others
      subst hc
      refine ⟨[] :: l :: more, List.cons_ne_nil _ _, ?_, (joinLines_cons_cons [] l more).symm⟩
      exact List.forall_mem_cons.mpr ⟨List.not_mem_nil, hls⟩
    · -- any other character is the first one of the first line
      refine ⟨(c :: l) :: more, List.cons_ne_nil _ _, ?_, ?_⟩
      · refine List.forall_mem_cons.mpr ⟨?_, hmore⟩
        rw [List.mem_cons, not_or]
        exact ⟨fun h => hc h.symm, hl⟩
      · cases more with
        | nil => rw [joinLines_singleton, joinLines_singleton]
        | cons next more => rw [joinLines_cons_cons, joinLines_cons_cons, List.cons_append]

/-- **The lines of a text are those it was put together from**, up to the carriage returns and an
empty one at the end. -/
theorem lines_joinLines {ls : List (List Char)} (h : ∀ l ∈ ls, '\n' ∉ l) :
    lines (joinLines ls) = linesOfPieces ls := by
  induction ls with
  | nil => rfl
  | cons l more ih =>
    obtain ⟨hl, hmore⟩ := List.forall_mem_cons.mp h
    cases more with
    | nil =>
      rw [joinLines_singleton, linesOfPieces]
      split
      · -- the last line is only there if it is not empty
        next hnil => rw [hnil, lines.eq_1]
      · next hne => exact lines_eq_singleton hl hne
    | cons next more =>
      rw [joinLines_cons_cons, lines_append_feed hl, ih hmore, linesOfPieces]

end ByteMachine.Text
