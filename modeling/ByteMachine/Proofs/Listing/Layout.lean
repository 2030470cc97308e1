import ByteMachine.Proofs.Listing.Reading
import Mathlib.Logic.Relation

/-!
# Layout does not matter

How a listing is laid out is up to its author: white space around the numerals, comments, the way in
which lines are ended, and whether the last line is ended at all. None of it changes what is read,
neither in a listing that denotes a program nor in one that has defects (`layout_is_irrelevant`).

The argument has two halves.

* What counts of a line is its content, and neither a comment nor white space around the line
  changes that (`content_spaced`, `content_commented`). A carriage return at the end of a line is
  white space as well, so it does not matter whether it is taken for a part of the line.
* The lines of a text that is put together from lines are these lines, up to carriage returns and up
  to an empty last one. The former have just been dealt with, and a blank line at the end is only
  counted (`agrees_concat_blank`). So such a text reads as the listing of these lines does
  (`agrees_joinLines`).

Hence texts agree if their lines have the same contents, and every change of the layout comes down
to that.
-/

namespace ByteMachine.Listing

/-- Two listings read alike: either they denote the same program or they have the same defects, and
reading them writes the same records. -/
structure Agrees (l l' : Listing) : Prop where
  program : l.program = l'.program
  transcript : l.transcript = l'.transcript

/-- A carriage return in front of every line feed. -/
def withReturns (text : List Char) : List Char :=
  text.flatMap fun c => if c = '\n' then ['\r', '\n'] else [c]

/-- A change of the layout of one line. What is added at the end of the line may stand in front of a
carriage return there, or behind it. -/
inductive RelaidLine : List Char → List Char → Prop where
  /-- White space is put around the line. -/
  | spaced (left line right ending : List Char) (hending : ending ∈ [[], ['\r']])
      (hleft : ∀ c ∈ left, Text.isWhiteSpace c ∧ c ≠ '\n')
      (hright : ∀ c ∈ right, Text.isWhiteSpace c ∧ c ≠ '\n') :
      RelaidLine (line ++ ending) (left ++ line ++ right ++ ending)
  /-- A comment is put behind the line. -/
  | commented (line comment ending : List Char) (hending : ending ∈ [[], ['\r']])
      (hcomment : '\n' ∉ comment) :
      RelaidLine (line ++ ending) (line ++ '#' :: comment ++ ending)

/-- A change of the layout of a text. -/
inductive Relaid : List Char → List Char → Prop where
  /-- Every line feed gets a carriage return. -/
  | returned (text : List Char) : Relaid text (withReturns text)
  /-- Any of the lines are changed. -/
  | lines (ls ls' : List (List Char)) (hfeed : ∀ l ∈ ls, '\n' ∉ l)
      (hlines : List.Forall₂ RelaidLine ls ls') :
      Relaid (Text.joinLines ls) (Text.joinLines ls')
  /-- The last line is ended. -/
  | ended (text : List Char) (hne : text ≠ []) (hlast : text.getLast? ≠ some '\n') :
      Relaid text (text ++ ['\n'])

variable {l l' l'' : Listing} {line left right comment ending piece text text' : List Char}
  {ls ls' : List (List Char)}

/-! ### Listings that read alike -/

/-- A listing reads like itself. -/
theorem Agrees.refl (l : Listing) : Agrees l l := ⟨rfl, rfl⟩

/-- Reading alike does not depend on the order. -/
theorem Agrees.symm (h : Agrees l l') : Agrees l' l := ⟨h.program.symm, h.transcript.symm⟩

/-- What reads alike in two steps reads alike. -/
theorem Agrees.trans (h : Agrees l l') (h' : Agrees l' l'') : Agrees l l'' :=
  ⟨h.program.trans h'.program, h.transcript.trans h'.transcript⟩

/-- The number of lines read is not looked at in the end. -/
theorem Reader.finish_with_line (r : Reader) (n : Nat) :
    ({ r with line := n } : Reader).finish = { r.finish with line := n } := by
  obtain ⟨_, _, _, _ | number, _, _⟩ := r
  · rfl
  · rfl

/-- A blank line at the end is only counted. -/
theorem agrees_concat_blank (lines : List Line) : Agrees ⟨lines ++ [.blank]⟩ ⟨lines⟩ := by
  have hread : ∃ n, read ⟨lines ++ [.blank]⟩ = { read ⟨lines⟩ with line := n } := by
    rw [read, List.foldl_append]
    exact ⟨_, Reader.finish_with_line _ _⟩
  obtain ⟨n, hread⟩ := hread
  constructor
  · rw [program, program, hread]
  · rw [transcript, transcript, hread]

/-! ### What counts of a line -/

/-- A comment that is added does not count. -/
theorem content_commented (line comment : List Char) :
    content (line ++ '#' :: comment) = content line := by
  rw [content_eq_iff]
  obtain ⟨code, old, hline, hcode, hold, htrimmed⟩ := isContent_content line
  refine ⟨code, old ++ '#' :: comment, by rw [hline, List.append_assoc], hcode, .inr ?_, htrimmed⟩
  -- the comment begins where the old one does, if there was one
  obtain rfl | ⟨rest, rfl⟩ := hold
  · exact ⟨comment, rfl⟩
  · exact ⟨rest ++ '#' :: comment, rfl⟩

/-- White space begins no comment. -/
theorem not_mem_of_isWhiteSpace (h : ∀ c ∈ left, Text.isWhiteSpace c) : '#' ∉ left := by
  intro hc
  exact absurd (h _ hc) (by decide)

/-- White space around a line does not count. -/
theorem content_spaced (hleft : ∀ c ∈ left, Text.isWhiteSpace c)
    (hright : ∀ c ∈ right, Text.isWhiteSpace c) :
    content (left ++ line ++ right) = content line := by
  rw [content_eq_iff]
  obtain ⟨code, comment, hline, hcode, hcomment, htrimmed⟩ := isContent_content line
  have hnotLeft : '#' ∉ left := not_mem_of_isWhiteSpace hleft
  have hnotRight : '#' ∉ right := not_mem_of_isWhiteSpace hright
  -- what is put behind the line belongs to the comment, if there is one
  obtain rfl | ⟨rest, rfl⟩ := hcomment
  · refine ⟨left ++ code ++ right, [], by rw [hline]; simp, ?_, .inl rfl,
      htrimmed.surround hleft hright⟩
    simp only [List.mem_append, not_or]
    exact ⟨⟨hnotLeft, hcode⟩, hnotRight⟩
  · refine ⟨left ++ code ++ [], '#' :: rest ++ right, by rw [hline]; simp, ?_, .inr ⟨_, rfl⟩,
      htrimmed.surround hleft (by simp)⟩
    simp only [List.append_nil, List.mem_append, not_or]
    exact ⟨hnotLeft, hcode⟩

/-- What may stand at the end of a line is white space. -/
theorem isWhiteSpace_of_mem_ending (h : ending ∈ [[], ['\r']]) :
    ∀ c ∈ ending, Text.isWhiteSpace c := by
  simp only [List.mem_cons, List.not_mem_nil, or_false] at h
  obtain rfl | rfl := h
  · exact List.forall_mem_nil _
  · exact List.forall_mem_singleton.mpr (by decide)

/-- A carriage return at the end of a line does not count. -/
theorem content_append_ending (h : ending ∈ [[], ['\r']]) :
    content (line ++ ending) = content line := by
  have hnone : ∀ c ∈ ([] : List Char), Text.isWhiteSpace c := by simp
  exact content_spaced hnone (isWhiteSpace_of_mem_ending h)

/-- It makes no difference whether a carriage return is left out. -/
theorem content_withoutReturn (piece : List Char) :
    content (Text.withoutReturn piece) = content piece := by
  unfold Text.withoutReturn
  split
  · next hlast =>
    -- there is a return at the end, and it is white space there
    obtain ⟨front, rfl⟩ := List.getLast?_eq_some_iff.mp hlast
    rw [List.dropLast_concat, content_append_ending (by simp)]
  · rfl

/-- **No change of the layout of a line changes what counts of it.** -/
theorem RelaidLine.content_eq (h : RelaidLine line piece) : content piece = content line := by
  cases h with
  | spaced left line right ending hending hleft hright =>
    rw [content_append_ending hending, content_append_ending hending]
    exact content_spaced (fun c hc => (hleft c hc).1) (fun c hc => (hright c hc).1)
  | commented line comment ending hending hcomment =>
    rw [content_append_ending hending, content_append_ending hending]
    exact content_commented line comment

/-- Nor does it end the line. -/
theorem RelaidLine.feed_not_mem (h : RelaidLine line piece) (hline : '\n' ∉ line) :
    '\n' ∉ piece := by
  cases h with
  | spaced left line right ending hending hleft hright =>
    rw [List.mem_append, not_or] at hline
    -- neither the white space nor the line has a line feed
    simp only [List.mem_append, not_or]
    exact ⟨⟨⟨fun hc => (hleft _ hc).2 rfl, hline.1⟩, fun hc => (hright _ hc).2 rfl⟩, hline.2⟩
  | commented line comment ending hending hcomment =>
    rw [List.mem_append, not_or] at hline
    simp only [List.mem_append, List.mem_cons, not_or]
    exact ⟨⟨hline.1, by decide, hcomment⟩, hline.2⟩

/-! ### Texts put together from lines -/

/-- The listing of some lines. -/
def ofLines (ls : List (List Char)) : Listing :=
  ⟨ls.map .ofChars⟩

/-- An empty line at the end does not count. -/
theorem ofLines_concat_nil (ls : List (List Char)) :
    (ofLines (ls ++ [[]])).Agrees (ofLines ls) := by
  rw [ofLines, List.map_append]
  exact agrees_concat_blank _

/-- To leave out carriage returns and an empty last line changes nothing. -/
theorem agrees_linesOfPieces (pieces : List (List Char)) :
    (ofLines (Text.linesOfPieces pieces)).Agrees (ofLines pieces) := by
  have hclasses : ofLines pieces = ofLines (Text.linesOfPieces pieces) ∨
      ofLines pieces = ofLines (Text.linesOfPieces pieces ++ [[]]) := by
    -- by induction on the pieces; only the last one may be left out, and only if it is empty
    induction pieces with
    | nil => exact .inl rfl
    | cons piece rest ih =>
      cases rest with
      | nil =>
        rw [Text.linesOfPieces]
        split
        · next hnil => exact .inr (by rw [hnil]; rfl)
        · exact .inl rfl
      | cons next more =>
        -- the other pieces lose at most a carriage return
        have hpiece : Line.ofChars (Text.withoutReturn piece) = .ofChars piece :=
          congrArg Line.ofContent (content_withoutReturn piece)
        simp only [ofLines, Listing.mk.injEq, Text.linesOfPieces, List.map_cons, List.cons_append,
          hpiece, List.cons.injEq, true_and] at ih ⊢
        exact ih
  obtain h | h := hclasses
  · rw [h]
    exact .refl _
  · rw [h]
    exact (ofLines_concat_nil _).symm

/-- **A text that is put together from lines reads as these lines do.** -/
theorem agrees_joinLines (h : ∀ l ∈ ls, '\n' ∉ l) :
    (ofText (String.ofList (Text.joinLines ls))).Agrees (ofLines ls) := by
  rw [ofText, String.toList_ofList, Text.lines_joinLines h]
  exact agrees_linesOfPieces ls

/-- It does not matter whether the last line is ended. -/
theorem agrees_joinLines_feed (h : ∀ l ∈ ls, '\n' ∉ l) :
    (ofText (String.ofList (Text.joinLines ls ++ ['\n']))).Agrees (ofLines ls) := by
  by_cases hls : ls = []
  · -- the text is a single line feed, and there is one blank line
    subst hls
    exact agrees_concat_blank []
  · have hconcat : ∀ l ∈ ls ++ [[]], '\n' ∉ l := by
      intro l hl
      obtain hl | hl := List.mem_append.mp hl
      · exact h l hl
      · rw [List.mem_singleton.mp hl]
        exact List.not_mem_nil
    rw [← Text.joinLines_concat_nil hls]
    exact (agrees_joinLines hconcat).trans (ofLines_concat_nil ls)

/-! ### Changes of the layout -/

/-- Without a line feed there is nowhere to put a carriage return. -/
theorem withReturns_of_not_mem (h : '\n' ∉ text) : withReturns text = text := by
  unfold withReturns
  induction text with
  | nil => rfl
  | cons c text ih =>
    rw [List.mem_cons, not_or] at h
    rw [List.flatMap_cons, if_neg (Ne.symm h.1), ih h.2, List.singleton_append]

/-- Lines whose ends get carriage returns, the last one excepted, are lines with white space behind
them. -/
theorem exists_withReturns_joinLines (h : ∀ l ∈ ls, '\n' ∉ l) :
    ∃ ls', List.Forall₂ RelaidLine ls ls' ∧
      withReturns (Text.joinLines ls) = Text.joinLines ls' := by
  -- by induction on the lines; the first one gets a return if there is another one behind it
  induction ls with
  | nil => exact ⟨[], .nil, rfl⟩
  | cons l more ih =>
    obtain ⟨hl, hmore⟩ := List.forall_mem_cons.mp h
    cases more with
    | nil =>
      have hsame : RelaidLine l l := by
        simpa using RelaidLine.spaced [] l [] [] (by simp) (by simp) (by simp)
      refine ⟨[l], .cons hsame .nil, ?_⟩
      rw [Text.joinLines_singleton, withReturns_of_not_mem hl]
    | cons next more =>
      obtain ⟨ls', hls', htext⟩ := ih hmore
      have hreturn : RelaidLine l (l ++ ['\r']) := by
        have hspace : ∀ c ∈ ['\r'], Text.isWhiteSpace c ∧ c ≠ '\n' :=
          List.forall_mem_singleton.mpr (by decide)
        simpa using RelaidLine.spaced [] l ['\r'] [] (by simp) (by simp) hspace
      cases hls' with
      | cons hnext hrest =>
        refine ⟨_ :: _ :: _, .cons hreturn (.cons hnext hrest), ?_⟩
        rw [Text.joinLines_cons_cons, Text.joinLines_cons_cons, ← htext]
        calc withReturns (l ++ '\n' :: Text.joinLines (next :: more))
          _ = withReturns l ++ '\r' :: '\n' :: withReturns (Text.joinLines (next :: more)) := by
            simp [withReturns]
          _ = l ++ ['\r'] ++ '\n' :: withReturns (Text.joinLines (next :: more)) := by
            rw [withReturns_of_not_mem hl, List.append_assoc, List.singleton_append]

/-- Texts whose lines are relaid one by one read alike. -/
theorem agrees_of_forall₂ (hfeed : ∀ l ∈ ls, '\n' ∉ l) (h : List.Forall₂ RelaidLine ls ls') :
    (ofText (String.ofList (Text.joinLines ls'))).Agrees
      (ofText (String.ofList (Text.joinLines ls))) := by
  have hboth : ofLines ls' = ofLines ls ∧ ∀ l ∈ ls', '\n' ∉ l := by
    -- by induction on the lines: each has the same class as before, and still no line feed
    induction h with
    | nil => exact ⟨rfl, by simp⟩
    | cons hline _ ih =>
      obtain ⟨hl, hmore⟩ := List.forall_mem_cons.mp hfeed
      obtain ⟨hclasses, hfeed'⟩ := ih hmore
      refine ⟨?_, List.forall_mem_cons.mpr ⟨hline.feed_not_mem hl, hfeed'⟩⟩
      simp only [ofLines, Listing.mk.injEq, List.map_cons, List.cons.injEq] at hclasses ⊢
      exact ⟨congrArg Line.ofContent hline.content_eq, hclasses⟩
  have hchanged := agrees_joinLines hboth.2
  rw [hboth.1] at hchanged
  exact hchanged.trans (agrees_joinLines hfeed).symm

/-- **A text reads the same after any change of its layout.** -/
theorem Relaid.agrees (h : Relaid text text') :
    (ofText (String.ofList text')).Agrees (ofText (String.ofList text)) := by
  cases h with
  | lines ls ls' hfeed hlines => exact agrees_of_forall₂ hfeed hlines
  | returned =>
    -- a carriage return behind a line is white space there
    obtain ⟨ls, -, hfeed, rfl⟩ := Text.exists_eq_joinLines text
    obtain ⟨ls', hlines, htext⟩ := exists_withReturns_joinLines hfeed
    rw [htext]
    exact agrees_of_forall₂ hfeed hlines
  | ended =>
    -- the line feed only adds an empty line
    obtain ⟨ls, -, hfeed, rfl⟩ := Text.exists_eq_joinLines text
    exact (agrees_joinLines_feed hfeed).trans (agrees_joinLines hfeed).symm

/-- **Layout is irrelevant**: a text reads the same after any number of changes of its layout, in
any order, whether it denotes a program or has defects. -/
theorem layout_is_irrelevant {text text' : String}
    (h : Relation.ReflTransGen Relaid text.toList text'.toList) :
    parseProgram text' = parseProgram text ∧
      (ofText text').transcript = (ofText text).transcript := by
  have hall {cs cs' : List Char} (h : Relation.ReflTransGen Relaid cs cs') :
      (ofText (String.ofList cs')).Agrees (ofText (String.ofList cs)) := by
    -- by induction on the changes, each of which reads like the one before
    induction h with
    | refl => exact .refl _
    | tail _ hlast ih => exact hlast.agrees.trans ih
  have hagrees := hall h
  rw [String.ofList_toList, String.ofList_toList] at hagrees
  exact ⟨hagrees.program, hagrees.transcript⟩

/-- A text with a defect: its lines are ended in another way, one gets a comment behind the carriage
return, the other white space, and then the last one is ended as well. -/
theorem layout_is_irrelevant_defect :
    let text := "1\n2"
    let text' := "1\r# one\n\t2\u2003\n"
    Relation.ReflTransGen Relaid text.toList text'.toList ∧
      parseProgram text = .error [⟨2, .malformed "2"⟩] ∧
      parseProgram text' = parseProgram text ∧
      (ofText text').transcript = (ofText text).transcript := by
  intro text text'
  have hreturned : Relaid ['1', '\n', '2'] ['1', '\r', '\n', '2'] := .returned _
  have hcommented : RelaidLine ['1', '\r'] ['1', '\r', '#', ' ', 'o', 'n', 'e'] :=
    .commented ['1', '\r'] [' ', 'o', 'n', 'e'] [] (by decide) (by decide)
  have hspaced : RelaidLine ['2'] ['\t', '2', '\u2003'] :=
    .spaced ['\t'] ['2'] ['\u2003'] [] (by decide) (List.forall_mem_singleton.mpr (by decide))
      (List.forall_mem_singleton.mpr (by decide))
  have hlines : Relaid ['1', '\r', '\n', '2']
      ['1', '\r', '#', ' ', 'o', 'n', 'e', '\n', '\t', '2', '\u2003'] :=
    .lines [['1', '\r'], ['2']] _ (by decide) (.cons hcommented (.cons hspaced .nil))
  have hended : Relaid ['1', '\r', '#', ' ', 'o', 'n', 'e', '\n', '\t', '2', '\u2003']
      ['1', '\r', '#', ' ', 'o', 'n', 'e', '\n', '\t', '2', '\u2003', '\n'] :=
    .ended _ (by decide) (by decide)
  have hrelaid : Relation.ReflTransGen Relaid text.toList text'.toList := by
    have htext : text.toList = ['1', '\n', '2'] := by decide
    have htext' : text'.toList =
        ['1', '\r', '#', ' ', 'o', 'n', 'e', '\n', '\t', '2', '\u2003', '\n'] := by decide
    rw [htext, htext']
    exact ((Relation.ReflTransGen.single hreturned).tail hlines).tail hended
  exact ⟨hrelaid, by decide +kernel, layout_is_irrelevant hrelaid⟩

end ByteMachine.Listing
