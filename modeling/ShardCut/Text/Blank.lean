import ShardCut.Text.Pieces

/-!
Blank characters and the words between them. A character is blank when it has the Unicode property
White_Space: the ASCII controls from tab to carriage return, the space, and the separators below.
U+200B (zero width space) and U+FEFF (byte order mark) do not have it.

Main definitions: `isBlank`, `words`.
-/

namespace ShardCut.Text

/-- The 25 code points with the property White_Space, as closed ranges. -/
def blankRanges : List (Nat × Nat) :=
  [(0x09, 0x0D), (0x20, 0x20), (0x85, 0x85), (0xA0, 0xA0), (0x1680, 0x1680), (0x2000, 0x200A),
   (0x2028, 0x2029), (0x202F, 0x202F), (0x205F, 0x205F), (0x3000, 0x3000)]

/-- A blank character separates the tokens of a line. -/
def isBlank (c : Char) : Bool :=
  blankRanges.any fun (lo, hi) => lo ≤ c.toNat && c.toNat ≤ hi

/-- A text is blank when it holds nothing but blank characters. -/
def allBlank (s : List Char) : Bool := s.all isBlank

/-- The maximal runs of characters that are not blank, in order. -/
def words (s : List Char) : List (List Char) :=
  (pieces isBlank s).filter fun piece => !piece.isEmpty

example : words [' ', 'v', '\t', '1', '2', '\r'] = [['v'], ['1', '2']] := by decide

end ShardCut.Text
