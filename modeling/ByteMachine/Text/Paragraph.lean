import ByteMachine.Text.Escape
import ByteMachine.Text.Lines
import ByteMachine.Text.WhiteSpace

/-!
# Paragraphs

The first paragraph of a text are its lines up to the first one that is empty. Colours do not count,
nor does white space at the end of a line.
-/

namespace ByteMachine.Text

/-- The lines of the first paragraph of a text. -/
def firstParagraph (text : String) : List String :=
  let bare := (lines (withoutColours text.toList)).map trimEnd
  (bare.takeWhile fun line => !line.isEmpty).map String.ofList

end ByteMachine.Text
