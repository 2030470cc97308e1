import ByteMachine.Listing.Numeral
import ByteMachine.Text.WhiteSpace

/-!
# Lines of a listing

What follows a `#` is a comment, white space around the numeral does not matter, and a line with
nothing else on it is blank. Every other line is malformed, and all that is kept of it is the text
that should have been a numeral.
-/

namespace ByteMachine.Listing

/-- What a line of a listing holds. -/
inductive Line where
  | blank
  | byte (value : Byte)
  | malformed (text : String)
deriving DecidableEq, Repr

/-- What counts of a line: the text in front of the first `#`, without the white space around
it. -/
def content (line : List Char) : List Char :=
  Text.trim (line.takeWhile (· != '#'))

/-- The class of a line with that content. -/
def Line.ofContent (content : List Char) : Line :=
  if content = [] then
    -- a line with nothing but a comment is blank as well
    blank
  else
    match Numeral.byte? content with
    | some value => byte value
    | none => malformed (String.ofList content)

/-- The class of a line. -/
def Line.ofChars (line : List Char) : Line :=
  .ofContent (content line)

end ByteMachine.Listing
