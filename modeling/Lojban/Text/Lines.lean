/-!
# Lines

A line ends at a line feed, at a carriage return, or at the two in this order; each of the three
reads as one line feed, and no other character ends a line.
-/

namespace Lojban.Text

/-- The two characters that end a line. -/
def isLineEnd (c : Char) : Bool :=
  c == '\n' || c == '\r'

/-- The first line of a text, with a line feed for whatever ends it. -/
def firstLine (cs : List Char) : List Char :=
  let line := cs.takeWhile fun c => !isLineEnd c
  if (cs.dropWhile fun c => !isLineEnd c).isEmpty then line else line ++ ['\n']

/-- What follows the first line of a text. -/
def dropLine (cs : List Char) : List Char :=
  match cs.dropWhile fun c => !isLineEnd c with
  | '\r' :: '\n' :: rest => rest
  | rest => rest.drop 1

/-- A text gets shorter when its first line is dropped. -/
theorem length_dropLine_lt {cs : List Char} (h : cs ≠ []) :
    (dropLine cs).length < cs.length := by
  have hle : (cs.dropWhile fun c => !isLineEnd c).length ≤ cs.length :=
    (List.dropWhile_sublist _).length_le
  have hpos : 0 < cs.length := List.length_pos_iff.mpr h
  unfold dropLine
  split
  · next heq => rw [heq] at hle; simp at hle; omega
  · rw [List.length_drop]; omega

/-- The lines of a text, each with the line feed that ends it. Only the last line may lack one, and
it is then not empty. -/
def lines (cs : List Char) : List (List Char) :=
  if cs = [] then [] else firstLine cs :: lines (dropLine cs)
termination_by cs.length
decreasing_by exact length_dropLine_lt ‹_›

/-- The text with every line end read as a line feed. -/
def unifyLineEnds (cs : List Char) : List Char :=
  (lines cs).flatten

end Lojban.Text
