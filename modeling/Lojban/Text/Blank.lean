/-!
# Blank characters

Two notions of white space live side by side. `isBlank` is the wide one: it separates the fields of
a word list line and decides whether a line of input is empty. The language itself knows only the
five characters of `Token.isGap`.

`strip`, `dropRightWhile` and `firstField` work on lists of characters and only ever remove
characters from the ends.
-/

namespace Lojban.Text

/-- White space in the wide sense: the ASCII controls that move the cursor, the four information
separators, the space, the next-line control and the Unicode space, line and paragraph
separators. The zero-width characters are not blank. -/
def isBlank (c : Char) : Bool :=
  let n := c.toNat
  (0x09 ≤ n && n ≤ 0x0D) || (0x1C ≤ n && n ≤ 0x20) || n == 0x85 || n == 0xA0 || n == 0x1680 ||
    (0x2000 ≤ n && n ≤ 0x200A) || n == 0x2028 || n == 0x2029 || n == 0x202F || n == 0x205F ||
    n == 0x3000

/-- `cs` without its longest tail of characters that satisfy `p`. -/
def dropRightWhile (p : Char → Bool) (cs : List Char) : List Char :=
  (cs.reverse.dropWhile p).reverse

/-- `cs` without the blank characters at either end. -/
def strip (cs : List Char) : List Char :=
  dropRightWhile isBlank (cs.dropWhile isBlank)

/-- The first run of characters that are not blank; empty iff every character is blank. -/
def firstField (cs : List Char) : List Char :=
  (cs.dropWhile isBlank).takeWhile fun c => !isBlank c

/-- A line that holds nothing but blank characters. -/
def isBlankLine (cs : List Char) : Bool :=
  cs.all isBlank

end Lojban.Text
