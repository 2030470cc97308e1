/-!
# Lines

A line ends at a line feed, and one carriage return right before that line feed belongs to the end
of the line as well. Text after the last line feed is a line of its own unless it is empty, so a
final line feed opens no further line.
-/

namespace ByteMachine.Text

/-- The lines of a text, without what ends them. -/
def lines : List Char → List (List Char)
  | [] => []
  -- only the last of several carriage returns belongs to the end of the line
  | '\r' :: '\n' :: rest => [] :: lines rest
  | '\n' :: rest => [] :: lines rest
  | c :: rest =>
    match lines rest with
    | [] => [[c]]
    | line :: more => (c :: line) :: more

example : lines ['a', '\r', '\n', '\n', 'b'] = [['a'], [], ['b']] := by decide

example : lines ['a', '\r', '\r', '\n'] = [['a', '\r']] := by decide

end ByteMachine.Text
