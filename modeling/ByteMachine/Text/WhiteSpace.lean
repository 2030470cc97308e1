/-!
# White space

The characters with the Unicode property White_Space: 25 code points in ten ranges. This is more
than the four characters of `Char.isWhitespace`; no-break spaces, for example, belong to it, while
the byte order mark does not.
-/

namespace ByteMachine.Text

/-- The code points with the property White_Space, as closed ranges in ascending order. -/
def whiteSpace : List (Nat × Nat) :=
  [(0x09, 0x0D), (0x20, 0x20), (0x85, 0x85), (0xA0, 0xA0), (0x1680, 0x1680), (0x2000, 0x200A),
    (0x2028, 0x2029), (0x202F, 0x202F), (0x205F, 0x205F), (0x3000, 0x3000)]

/-- Membership in White_Space. -/
def isWhiteSpace (c : Char) : Bool :=
  whiteSpace.any fun range => range.1 ≤ c.toNat && c.toNat ≤ range.2

example : (whiteSpace.map fun range => range.2 + 1 - range.1).sum = 25 := by decide

/-- The text without the white space at its end. -/
def trimEnd (cs : List Char) : List Char :=
  (cs.reverse.dropWhile isWhiteSpace).reverse

/-- The text without the white space at its two ends. -/
def trim (cs : List Char) : List Char :=
  trimEnd (cs.dropWhile isWhiteSpace)

example : trim [' ', 'a', ' ', 'b', '\r'] = ['a', ' ', 'b'] := by decide

end ByteMachine.Text
