/-! Blank characters: the code points with the White_Space property of Unicode, 25 in all. Every cut of
level text into words and every trimming goes by this set, so `Char.isWhitespace`, which knows only four
of them, is not enough. -/

namespace LevelPlay.Text

/-- The blank code points, as inclusive ranges in ascending order. -/
def blankRanges : List (Nat × Nat) :=
  [(0x9, 0xD), (0x20, 0x20), (0x85, 0x85), (0xA0, 0xA0), (0x1680, 0x1680), (0x2000, 0x200A),
    (0x2028, 0x2029), (0x202F, 0x202F), (0x205F, 0x205F), (0x3000, 0x3000)]

def isBlank (c : Char) : Bool :=
  blankRanges.any fun range => decide (range.1 ≤ c.toNat ∧ c.toNat ≤ range.2)

example : (blankRanges.map fun range => range.2 + 1 - range.1).sum = 25 := by decide

end LevelPlay.Text
