import Mathlib.Tactic
import Lojban.Text.Index

/-!
# Byte offsets of characters

The byte offset of a character index is the number of bytes in front of it, whichever way
`ByteIndex.offset` works it out (`offset_natCast`), and the bytes between two such offsets are those
of the characters between the two indices (`slice_encode`). So a span that is right in characters is
right in bytes, also when the text stands in a longer one (`TakesUp.slice_append`).
-/

namespace Lojban.Text

namespace Utf8

theorem byteLength_cons (c : Char) (cs : List Char) :
    byteLength (c :: cs) = c.utf8Size + byteLength cs := by
  simp [byteLength]

theorem byteLength_append (cs ds : List Char) :
    byteLength (cs ++ ds) = byteLength cs + byteLength ds := by
  simp [byteLength]

theorem byteLength_toList (s : String) : byteLength s.toList = s.utf8ByteSize := by
  rw [← String.size_toByteArray, ← String.utf8Encode_toList, List.utf8Encode, List.size_toByteArray]
  rfl

/-- Every character takes a byte. -/
theorem length_le_byteLength (cs : List Char) : cs.length ≤ byteLength cs := by
  induction cs with
  | nil => exact le_rfl
  | cons c cs ih =>
    have := c.utf8Size_pos
    rw [byteLength_cons, List.length_cons]
    omega

theorem utf8Size_of_isAscii {c : Char} (h : isAscii c = true) : c.utf8Size = 1 := by
  rw [Char.utf8Size_eq_one_iff]
  simp only [isAscii, decide_eq_true_eq] at h
  have hle : c.val.toNat ≤ 127 := by
    show c.toNat ≤ 127
    omega
  exact hle

theorem byteLength_of_ascii {cs : List Char} (h : cs.all isAscii = true) :
    byteLength cs = cs.length := by
  induction cs with
  | nil => rfl
  | cons c cs ih =>
    rw [List.all_cons, Bool.and_eq_true] at h
    rw [byteLength_cons, utf8Size_of_isAscii h.1, ih h.2, List.length_cons]
    omega

theorem isAscii_of_utf8Size {c : Char} (h : c.utf8Size = 1) : isAscii c = true := by
  have hle : c.val.toNat ≤ 127 := Char.utf8Size_eq_one_iff.mp h
  rw [isAscii, decide_eq_true_eq]
  exact Nat.lt_succ_of_le hle

/-- Characters of more than one byte make a text longer in bytes. -/
theorem byteLength_eq_length_iff {cs : List Char} :
    byteLength cs = cs.length ↔ ∀ c ∈ cs, isAscii c = true := by
  constructor
  · induction cs with
    | nil => simp
    | cons c cs ih =>
      intro h
      have hc := c.utf8Size_pos
      have hcs := length_le_byteLength cs
      rw [byteLength_cons, List.length_cons] at h
      rw [List.forall_mem_cons]
      exact ⟨isAscii_of_utf8Size (by omega), ih (by omega)⟩
  · exact fun h => byteLength_of_ascii (List.all_eq_true.mpr h)

end Utf8

open Utf8

/-! ## Slices -/

section Slice

variable {α : Type} (xs ys zs : List α)

theorem slice_append_middle :
    slice (xs ++ (ys ++ zs)) xs.length (xs.length + ys.length) = ys := by
  rw [slice, List.drop_left, show xs.length + ys.length - xs.length = ys.length by omega,
    List.take_left]

/-- Slices of a longer list lie as much further on as elements stand in front. -/
theorem slice_length_add (i j : ℕ) :
    slice (xs ++ ys) (xs.length + i) (xs.length + j) = slice ys i j := by
  rw [slice, List.drop_length_add_append, Nat.add_sub_add_left, slice]

theorem slice_append_of_le {i j : ℕ} (h : i ≤ j) (hj : j ≤ xs.length) :
    slice (xs ++ ys) i j = slice xs i j := by
  rw [slice, List.drop_append_of_le_length (h.trans hj), List.take_append_of_le_length, slice]
  rw [List.length_drop]
  omega

theorem length_slice {i j : ℕ} (hj : j ≤ xs.length) : (slice xs i j).length = j - i := by
  rw [slice, List.length_take, List.length_drop]
  omega

theorem take_append_slice {i j : ℕ} (h : i ≤ j) : xs.take i ++ slice xs i j = xs.take j := by
  rw [slice, ← List.take_add, show i + (j - i) = j by omega]

end Slice

/-- The bytes between the offsets of two indices are those of the characters between them. -/
theorem slice_encode {text : List Char} {i j : ℕ} (h : i ≤ j) :
    slice (encode text) (byteLength (text.take i)) (byteLength (text.take j)) =
      encode (slice text i j) := by
  have htake := take_append_slice text h
  have hsplit : encode text =
      encode (text.take i) ++ (encode (slice text i j) ++ encode (text.drop j)) := by
    rw [← encode_append, ← encode_append, ← List.append_assoc, htake, List.take_append_drop]
  rw [hsplit, ← htake, byteLength_append]
  exact slice_append_middle ..

theorem byteLength_take_lt (text : List Char) {i j : ℕ} (h : i < j) (hj : j ≤ text.length) :
    byteLength (text.take i) < byteLength (text.take j) := by
  have hlen := length_slice text (i := i) hj
  have hbytes := length_le_byteLength (slice text i j)
  rw [← take_append_slice text h.le, byteLength_append]
  omega

/-- Different indices have different numbers of bytes in front. -/
theorem byteLength_take_inj {text : List Char} {i j : ℕ} (hi : i ≤ text.length)
    (hj : j ≤ text.length) (h : byteLength (text.take i) = byteLength (text.take j)) : i = j := by
  rcases lt_trichotomy i j with hlt | heq | hlt
  · exact absurd h (byteLength_take_lt text hlt hj).ne
  · exact heq
  · exact absurd h (byteLength_take_lt text hlt hi).ne'

theorem byteLength_take_le (text : List Char) {i j : ℕ} (h : i ≤ j) :
    byteLength (text.take i) ≤ byteLength (text.take j) := by
  rw [← take_append_slice text h, byteLength_append]
  omega

theorem byteLength_take_le_encode (text : List Char) (i : ℕ) :
    byteLength (text.take i) ≤ (encode text).length := by
  show _ ≤ byteLength text
  conv_rhs => rw [← List.take_append_drop i text, byteLength_append]
  omega

/-! ## Offsets -/

namespace ByteIndex

@[simp] theorem of_text (text : List Char) : (ByteIndex.of text).text = text := rfl

/-- Both ways of working an offset out give the number of bytes in front of the index. -/
theorem offset_natCast {text : List Char} {i : ℕ} (h : i ≤ text.length) :
    (ByteIndex.of text).offset i = byteLength (text.take i) := by
  unfold offset
  split_ifs with hascii
  · have hall : (text.take i).all isAscii = true := by
      change text.all isAscii = true at hascii
      rw [List.all_eq_true] at hascii ⊢
      exact fun c hc => hascii c (List.mem_of_mem_take hc)
    rw [byteLength_of_ascii hall, List.length_take]
    congr 1
    omega
  · rw [of_text, bound_natCast h]

end ByteIndex

/-! ## Bytes between offsets -/

/-- The bytes of a text from the offset `start` up to `stop`, which are read as cut positions. -/
def bytesBetween (text : String) (start stop : ℤ) : List UInt8 :=
  let bytes := encode text.toList
  slice bytes (bound bytes.length start) (bound bytes.length stop)

theorem bytesBetween_natCast {text : String} {i j : ℕ} (hi : i ≤ (encode text.toList).length)
    (hj : j ≤ (encode text.toList).length) :
    bytesBetween text i j = slice (encode text.toList) i j := by
  simp only [bytesBetween, bound_natCast hi, bound_natCast hj]

/-- The bytes between the offsets of two indices of a text. -/
theorem bytesBetween_offset (text : String) {i j : ℕ} (h : i ≤ j) (hj : j ≤ text.toList.length) :
    bytesBetween text ((ByteIndex.of text.toList).offset i) ((ByteIndex.of text.toList).offset j) =
      encode (slice text.toList i j) := by
  rw [ByteIndex.offset_natCast (h.trans hj), ByteIndex.offset_natCast hj,
    bytesBetween_natCast (byteLength_take_le_encode ..) (byteLength_take_le_encode ..),
    slice_encode h]

/-! ## Spans -/

/-- The characters of `part` stand in `text`, and `span` gives the offsets between which their bytes
lie. -/
def TakesUp (text : List Char) (part : String) (span : ℤ × ℤ) : Prop :=
  ∃ i j, i ≤ j ∧ j ≤ text.length ∧ slice text i j = part.toList ∧
    span = ((byteLength (text.take i) : ℤ), (byteLength (text.take j) : ℤ))

/-- In a longer text, the bytes of the part lie as much further on as bytes stand in front. -/
theorem TakesUp.slice_append {text : List Char} {part : String} {span : ℤ × ℤ}
    (h : TakesUp text part span) (before behind : List Char) :
    ∃ i j : ℕ, span = ((i : ℤ), (j : ℤ)) ∧ i ≤ j ∧
      byteLength before + j ≤ (encode (before ++ (text ++ behind))).length ∧
      slice (encode (before ++ (text ++ behind))) (byteLength before + i) (byteLength before + j) =
        encode part.toList := by
  obtain ⟨i, j, hij, hj, hslice, hspan⟩ := h
  -- both offsets are those of characters of the longer text
  have htake : ∀ {n}, n ≤ text.length → byteLength before + byteLength (text.take n) =
      byteLength ((before ++ (text ++ behind)).take (before.length + n)) := by
    intro n hn
    rw [List.take_length_add_append, List.take_append_of_le_length hn, byteLength_append]
  have hpart : slice (before ++ (text ++ behind)) (before.length + i) (before.length + j) =
      part.toList := by
    rw [slice_length_add, slice_append_of_le _ _ hij hj, hslice]
  refine ⟨_, _, hspan, byteLength_take_le text hij, ?_, ?_⟩
  · rw [htake hj]
    exact byteLength_take_le_encode ..
  · rw [htake (hij.trans hj), htake hj, slice_encode (by omega), hpart]

end Lojban.Text
