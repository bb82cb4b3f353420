/-
Module: SealedMatch.Text.Blank
Purpose: Blank characters and trimming.
Trusted boundary: none
Main exports: isBlank, isSpacing, trim
-/

namespace SealedMatch.Text

/-- The characters that separate words: the ASCII controls used as separators, the plain and the
no-break space, and the space, line and paragraph separators of the character standard. -/
def isBlank (c : Char) : Bool :=
  let n := c.toNat
  (9 ≤ n && n ≤ 13) || (28 ≤ n && n ≤ 32) || n == 0x85 || n == 0xA0 || n == 0x1680 ||
    (0x2000 ≤ n && n ≤ 0x200A) || n == 0x2028 || n == 0x2029 || n == 0x202F || n == 0x205F ||
    n == 0x3000

/-- The blanks that may stand around a numeral: all but the four separators of records and files. -/
def isSpacing (c : Char) : Bool := isBlank c && !(28 ≤ c.toNat && c.toNat ≤ 31)

/-- Drop characters of a kind at both ends. -/
def trimOf (p : Char → Bool) (cs : List Char) : List Char :=
  ((cs.dropWhile p).reverse.dropWhile p).reverse

/-- Drop the blanks at both ends. -/
def trim (cs : List Char) : List Char := trimOf isBlank cs

end SealedMatch.Text
