/-!
# Destructure.Text.Space

White space: the characters with the Unicode property `White_Space`, which is more than the blank,
tab and line ends of ASCII.
-/

namespace Destructure.Text

/-- Code points of the property `White_Space`, as closed ranges. -/
def spaceRanges : List (Nat × Nat) :=
  [(0x09, 0x0D), (0x20, 0x20), (0x85, 0x85), (0xA0, 0xA0), (0x1680, 0x1680), (0x2000, 0x200A),
   (0x2028, 0x2029), (0x202F, 0x202F), (0x205F, 0x205F), (0x3000, 0x3000)]

/-- Is the code point of `c` in one of these closed ranges? -/
def inRanges (ranges : List (Nat × Nat)) (c : Char) : Bool :=
  ranges.any fun r => r.1 ≤ c.toNat && c.toNat ≤ r.2

/-- Is `c` white space? -/
def isSpace (c : Char) : Bool := inRanges spaceRanges c

example : isSpace '\u2003' = true ∧ isSpace '\u200b' = false := by decide

end Destructure.Text
