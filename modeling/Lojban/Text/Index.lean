import Lojban.Text.Utf8

/-!
# Indices into a text

A text is cut at character indices and reported on in byte offsets. `bound` reads an arbitrary
integer as a cut position, `ByteIndex` maps character indices to byte offsets, and `slice` cuts.
-/

namespace Lojban.Text

/-- The position that `i` stands for in a sequence of `length` elements: negative numbers count from
the end, and a number past either end stands for that end. -/
def bound (length : Nat) (i : Int) : Nat :=
  if i < 0 then (length + i).toNat else min i.toNat length

/-- A position never lies past the end. -/
theorem bound_le (length : Nat) (i : Int) : bound length i ≤ length := by
  unfold bound
  split <;> omega

/-- An index within the sequence stands for itself. -/
theorem bound_natCast {length n : Nat} (h : n ≤ length) : bound length n = n := by
  unfold bound
  split <;> omega

/-- The elements at indices `first`, …, `stop - 1`. -/
def slice {α : Type} (xs : List α) (first stop : Nat) : List α :=
  (xs.drop first).take (stop - first)

/-- A text prepared for turning character indices into byte offsets. -/
structure ByteIndex where
  text : List Char
  /-- Every character takes one byte, so that indices and offsets agree. -/
  ascii : Bool := text.all Utf8.isAscii

/-- Prepares a text. -/
def ByteIndex.of (text : List Char) : ByteIndex :=
  { text }

/-- The byte offset of a character index. In an ASCII text it is the index itself, whatever its
size; otherwise it is the length of the bytes before the index. -/
def ByteIndex.offset (x : ByteIndex) (i : Int) : Int :=
  if x.ascii then i else Utf8.byteLength (x.text.take (bound x.text.length i))

/-- The number of characters in the first bytes of `source`, up to the byte offset `i`. There is
none when `i` cuts a character in two. -/
def charsBefore (source : List Char) (i : Int) : Except Utf8.Fault Nat :=
  let bytes := Utf8.encode source
  (Utf8.decode (bytes.take (bound bytes.length i))).map List.length

end Lojban.Text
