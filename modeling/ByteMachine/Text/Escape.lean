/-!
# What is seen of a text

A text that goes to a terminal may hold more than its reader sees. A control character has no shape
of its own, unless it is white space, and an escape character opens a sequence that is meant for the
terminal: a change of colour, the title of the window, a string for some device. Such a sequence is
hidden as a whole.

Where a sequence ends depends on how it began. Most of them end with the first letter after their
parameters, those that carry a string end with a terminator, and each of them ends as soon as
another escape character or one of the two cancelling characters turns up. So a reader has to know
which part of a sequence has been read, which is the type `Escape`, and the text that is seen is
read off character by character (`visible`). Two lemmas say what it amounts to: nothing is seen but
characters that can be (`shows_of_mem_visibleFrom`), and a text that holds nothing else is seen as
it is (`visibleFrom_eq_self`).

There is a milder way to clean a text, which leaves out changes of colour and keeps everything else
(`withoutColours`).
-/

namespace ByteMachine.Text

/-! ### Characters -/

/-- A character of a closed range. -/
def between (low high c : Char) : Bool :=
  low ≤ c && c ≤ high

/-- A layout character, that is, a control character that is white space: tab, line feed, form feed,
carriage return. -/
def isLayout (c : Char) : Bool :=
  c = '\t' || c = '\n' || c = '\x0c' || c = '\r'

/-- Terminals read a string byte by byte, so every character ends it that has the terminator among
its bytes. -/
def endsString (c : Char) : Bool :=
  (String.utf8EncodeChar c).contains 0x9c

/-! ### Sequences -/

/-- How much of an escape sequence has been read. -/
inductive Escape where
  /-- No sequence is open. -/
  | closed
  /-- The escape character alone. -/
  | opened
  /-- The escape character and intermediate characters, which select a set of commands. -/
  | selected
  /-- Some of a control sequence, such as a change of colour. -/
  | control
  /-- Some of a string for the system, such as a title. -/
  | system
  /-- No more than the introducer of a string for a device. -/
  | device
  /-- Such an introducer with parameters. -/
  | deviceParameters
  /-- Such an introducer with intermediate characters. -/
  | deviceSelected
  /-- Some of a string that is not looked at. -/
  | ignored
deriving DecidableEq, Repr

namespace Escape

/-- What the character after the escape character opens, if it does not end the sequence. -/
def introduced (c : Char) : Escape :=
  match c with
  | '[' => control
  | ']' => system
  | 'P' => device
  | 'X' | '^' | '_' => ignored
  -- a final character ends the sequence that it alone makes up
  | _ => if between ' ' '/' c then selected else if between '0' '~' c then closed else opened

/-- The state after one more character. Control characters, and characters that have no place in a
sequence, leave it as it is. -/
def next (e : Escape) (c : Char) : Escape :=
  -- these end whatever sequence is open, and the first of them opens another
  if c = '\x1b' then opened
  else if c = '\x18' || c = '\x1a' then closed
  else match e with
    | closed => closed
    | opened => introduced c
    | selected => if between '0' '~' c then closed else selected
    | control => if between '@' '~' c then closed else control
    | system => if c = '\x07' then closed else system
    | device =>
      if between '@' '~' c then ignored
      else if between '0' '?' c then deviceParameters
      else if between ' ' '/' c then deviceSelected
      else device
    | deviceParameters =>
      if between '<' '~' c then ignored
      else if between ' ' '/' c then deviceSelected
      else deviceParameters
    | deviceSelected => if between '0' '~' c then ignored else deviceSelected
    | ignored => if endsString c then closed else ignored

/-- Whether a character is seen. Layout characters are, even inside a sequence, unless it is a
string. -/
def shows (e : Escape) (c : Char) : Bool :=
  match e with
  | closed => between ' ' '~' c || '\x80' ≤ c || isLayout c
  | opened | selected | control => isLayout c
  | system | device | deviceParameters | deviceSelected | ignored => false

/-- What is seen inside a sequence would be seen outside of it. -/
theorem shows_closed_of_shows {e : Escape} {c : Char} (h : e.shows c) : closed.shows c := by
  cases e <;> simp_all [shows]

end Escape

/-! ### Visible text -/

/-- What is seen of the rest of a text. A layout character suspends the sequence in which it stands
(`suspended`): what follows is seen as well, up to the first character that cannot be seen at all,
and there the sequence goes on. A character beyond ASCII that is seen so closes the sequence. -/
def visibleFrom (e : Escape) (suspended : Bool) : List Char → List Char
  | [] => []
  | c :: rest =>
    if (if suspended then Escape.closed else e).shows c then
      c :: visibleFrom (if c < '\x80' then e else .closed) true rest
    else
      visibleFrom (e.next c) false rest

/-- What is seen of a text. -/
def visible (text : String) : String :=
  String.ofList (visibleFrom .closed false text.toList)

/-- Nothing is seen but characters that can be. -/
theorem shows_of_mem_visibleFrom {e : Escape} {suspended : Bool} {text : List Char} {c : Char}
    (h : c ∈ visibleFrom e suspended text) : Escape.closed.shows c := by
  induction text generalizing e suspended with
  | nil => simp [visibleFrom] at h
  | cons d rest ih =>
    by_cases hd : (if suspended then Escape.closed else e).shows d
    · rw [visibleFrom, if_pos hd] at h
      rcases List.mem_cons.mp h with rfl | h
      · exact Escape.shows_closed_of_shows hd
      · exact ih h
    · rw [visibleFrom, if_neg hd] at h
      exact ih h

/-- A text that can be seen as a whole is seen as it is. -/
theorem visibleFrom_eq_self {suspended : Bool} {text : List Char}
    (h : ∀ c ∈ text, Escape.closed.shows c) : visibleFrom .closed suspended text = text := by
  induction text generalizing suspended with
  | nil => rfl
  | cons c rest ih =>
    have hc : Escape.closed.shows c := h c List.mem_cons_self
    have hrest : visibleFrom .closed true rest = rest :=
      ih fun d hd => h d (List.mem_cons_of_mem c hd)
    simp [visibleFrom, hc, hrest]

-- the bell is hidden, and so is a change of colour
example : visibleFrom .closed false ['a', '\x07', '\x1b', '[', '1', 'm', 'b'] = ['a', 'b'] := by
  decide

/-! ### Colours -/

/-- A piece of text that stands behind an escape character, together with that character, or
without both if they begin with a change of colour. -/
def withoutLeadingColour (piece : List Char) : List Char :=
  match piece with
  | '[' :: rest =>
    -- numbers between semicolons, and then the letter that stands for colours
    match rest.dropWhile fun c => c.isDigit || c = ';' with
    | 'm' :: shown => shown
    | _ => '\x1b' :: piece
  | _ => '\x1b' :: piece

/-- A text without changes of colour. A change holds no escape character but its first, so it lies
within one of the pieces into which the escape characters divide the text. -/
def withoutColours (text : List Char) : List Char :=
  let pieces := text.splitOn '\x1b'
  pieces.headD [] ++ pieces.tail.flatMap withoutLeadingColour

end ByteMachine.Text
