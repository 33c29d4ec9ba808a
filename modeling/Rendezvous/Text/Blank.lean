/-!
# Blanks

The white space of Unicode's `White_Space` property, and trimming by it.

## Main definitions

* `Text.isBlank`, `Text.trim`.
-/

namespace Rendezvous.Text

/-- The code points with the `White_Space` property. -/
def blankCodes : List Nat := [
  0x09, 0x0a, 0x0b, 0x0c, 0x0d, 0x20, 0x85, 0xa0, 0x1680, 0x2000, 0x2001, 0x2002, 0x2003, 0x2004,
  0x2005, 0x2006, 0x2007, 0x2008, 0x2009, 0x200a, 0x2028, 0x2029, 0x202f, 0x205f, 0x3000]

/-- Whether a character is white space. -/
def isBlank (c : Char) : Bool :=
  blankCodes.contains c.toNat

/-- Drops the characters that pass a test from both ends. -/
def trimBy (p : Char → Bool) (cs : List Char) : List Char :=
  ((cs.dropWhile p).reverse.dropWhile p).reverse

/-- Drops the blanks from both ends. -/
def trim (cs : List Char) : List Char :=
  trimBy isBlank cs

end Rendezvous.Text
