/-!
# Lines and columns of a character index

Lines and columns count from one. Only a line feed starts a new line.
-/

namespace Lojban.Text

/-- The line of the character index `i`. -/
def lineAt (cs : List Char) (i : Nat) : Nat :=
  (cs.take i).count '\n' + 1

/-- The end of a text, from behind its last line feed. -/
def lastLine (cs : List Char) : List Char :=
  (cs.reverse.takeWhile (· ≠ '\n')).reverse

/-- The column of the character index `i`. -/
def columnAt (cs : List Char) (i : Nat) : Nat :=
  (lastLine (cs.take i)).length + 1

/-- How far a text reaches when it is written out with tab stops every eight columns, starting at
column `column` of a row of which `width` cells are filled. A carriage return goes back to the first
column but still fills a cell. -/
def tabbedWidthFrom (column width : Nat) : List Char → Nat
  | [] => width
  | c :: cs =>
    if c = '\t' then
      let fill := 8 - column % 8
      tabbedWidthFrom (column + fill) (width + fill) cs
    else if c = '\r' ∨ c = '\n' then
      tabbedWidthFrom 0 (width + 1) cs
    else
      tabbedWidthFrom (column + 1) (width + 1) cs

/-- The number of cells that a text fills when tabs are expanded. -/
def tabbedWidth (cs : List Char) : Nat :=
  tabbedWidthFrom 0 0 cs

end Lojban.Text
