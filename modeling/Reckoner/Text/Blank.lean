/-!
# Text — blanks

The characters that Unicode lists as white space.  Blanks inside an expression mean nothing.
-/

namespace Reckoner.Text

/-- The ranges of Unicode's `White_Space` property, each by its first and last code point. -/
def blankRanges : List (Nat × Nat) :=
  [(0x0009, 0x000D), (0x0020, 0x0020), (0x0085, 0x0085), (0x00A0, 0x00A0), (0x1680, 0x1680),
   (0x2000, 0x200A), (0x2028, 0x2029), (0x202F, 0x202F), (0x205F, 0x205F), (0x3000, 0x3000)]

/-- White space, as Unicode has it. -/
def isBlank (c : Char) : Bool :=
  blankRanges.any fun (first, last) => first ≤ c.toNat && c.toNat ≤ last

end Reckoner.Text
