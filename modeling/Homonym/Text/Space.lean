import Homonym.Text.Basic

/-!
# White space

Indentation, trimming and the gaps inside a function header all go by one set
of characters, those with the Unicode property White_Space. A tab counts as one
character, like any other member of the set.
-/

namespace Homonym

/-- The characters with the property White_Space, as ranges of code points
    with both ends included, in increasing order. -/
def spaceRanges : List (Nat × Nat) :=
  [(0x09, 0x0D), (0x20, 0x20), (0x85, 0x85), (0xA0, 0xA0), (0x1680, 0x1680),
   (0x2000, 0x200A), (0x2028, 0x2029), (0x202F, 0x202F), (0x205F, 0x205F), (0x3000, 0x3000)]

/-- Whether `c` is white space. -/
def isSpace (c : Char) : Bool :=
  spaceRanges.any fun r => r.1 ≤ c.toNat && c.toNat ≤ r.2

namespace Text

/-- The number of white space characters that `t` starts with. -/
def indent (t : Text) : Nat :=
  (t.takeWhile isSpace).length

/-- A text without the white space at its end. -/
def trimRight (t : Text) : Text :=
  (t.reverse.dropWhile isSpace).reverse

/-- A text without the white space around it. -/
def trim (t : Text) : Text :=
  trimRight (t.dropWhile isSpace)

end Text

end Homonym
