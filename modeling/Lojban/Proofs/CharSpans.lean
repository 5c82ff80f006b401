import Lojban.Proofs.ByteOffsets
import Lojban.Proofs.Encodings
import Lojban.Tree

/-!
# From byte offsets back to characters

The characters in front of a byte offset are found by decoding the bytes in front of it. If these
end where a character ends (`BoundaryAt`), they are its characters up to there; if they end within a
character (`Fault.CutsInto`), this character is cut off.

Main results:
* `Tree.charSpan_iff`: when a node has a span of characters, and why it has none.
* `Tree.charSpan_offset`: characters are mapped to bytes and back.
-/

namespace Lojban.Text.Utf8

/-! ## Specification -/

/-- The first `n` characters of the text are its first `k` bytes. -/
structure BoundaryAt (text : List Char) (n k : ℕ) : Prop where
  le : n ≤ text.length
  bytes : byteLength (text.take n) = k

/-- The first `k` bytes of the text end within a character, at whose first byte the fault starts. -/
structure Fault.CutsInto (f : Fault) (text : List Char) (k : ℕ) : Prop where
  reason : f.reason.message = "unexpected end of data"
  stop : f.stop = k
  character : ∃ cs c ds, text = cs ++ c :: ds ∧ byteLength cs = f.first ∧
    (String.utf8EncodeChar c).head? = some f.lead ∧ f.first < k ∧ k < f.first + c.utf8Size

/-! ## Decoding the first bytes of a text -/

/-- Bytes of a text end where a character ends, or within a character. -/
theorem boundaryAt_or_within {text : List Char} {k : ℕ} (hk : k ≤ byteLength text) :
    (∃ n, BoundaryAt text n k) ∨
      ∃ cs c ds, text = cs ++ c :: ds ∧ byteLength cs < k ∧ k < byteLength cs + c.utf8Size := by
  induction text generalizing k with
  | nil =>
    left
    exact ⟨0, le_rfl, (Nat.le_zero.mp hk).symm⟩
  | cons c text ih =>
    rw [byteLength_cons] at hk
    by_cases hc : c.utf8Size ≤ k
    · have hrest : k - c.utf8Size ≤ byteLength text := by omega
      rcases ih hrest with ⟨n, hle, hbytes⟩ | ⟨cs, d, ds, rfl, hfirst, hlast⟩
      · left
        refine ⟨n + 1, Nat.succ_le_succ hle, ?_⟩
        rw [List.take_succ_cons, byteLength_cons, hbytes]
        omega
      · right
        refine ⟨c :: cs, d, ds, rfl, ?_, ?_⟩ <;> rw [byteLength_cons] <;> omega
    · by_cases hzero : k = 0
      · left
        exact ⟨0, Nat.zero_le _, hzero.symm⟩
      · right
        exact ⟨[], c, text, rfl, Nat.pos_of_ne_zero hzero, by simpa [byteLength] using hc⟩

theorem BoundaryAt.decode_take {text : List Char} {n k : ℕ} (h : BoundaryAt text n k) :
    decode ((encode text).take k) = .ok (text.take n) := by
  obtain ⟨-, rfl⟩ := h
  conv_lhs => rw [← List.take_append_drop n text, encode_append, List.take_append_drop]
  rw [byteLength, List.take_left, decode_encode]

theorem Fault.CutsInto.decode_take {text : List Char} {f : Fault} {k : ℕ} (h : f.CutsInto text k) :
    decode ((encode text).take k) = .error f := by
  obtain ⟨first, stop, lead, reason⟩ := f
  obtain ⟨hreason, rfl, cs, c, ds, rfl, rfl, hlead, hfirst, hlast⟩ := h
  dsimp only at hreason hlead hfirst hlast ⊢
  obtain ⟨tail, hc⟩ := List.head?_eq_some_iff.mp hlead
  obtain ⟨m, rfl⟩ : ∃ m, stop = byteLength cs + m := ⟨stop - byteLength cs, by omega⟩
  have hm : m < c.utf8Size := by omega
  obtain rfl : reason = .cut := by
    cases reason with
    | cut => rfl
    | badStart | badContinuation => simp [Reason.message] at hreason
  have htake : (encode (cs ++ c :: ds)).take (byteLength cs + m) =
      encode cs ++ (String.utf8EncodeChar c).take m := by
    rw [encode_append, byteLength, List.take_length_add_append, encode_cons,
      List.take_append_of_le_length (by rw [String.length_utf8EncodeChar]; exact hm.le)]
  rw [htake]
  exact decode_cut hm cs hc (by omega)

/-- The first bytes of a text end at a boundary, or they cut a character off. -/
theorem boundaryAt_or_cutsInto {text : List Char} {k : ℕ} (hk : k ≤ byteLength text) :
    (∃ n, BoundaryAt text n k) ∨ ∃ f : Fault, f.CutsInto text k := by
  rcases boundaryAt_or_within hk with hboundary | ⟨cs, c, ds, htext, hfirst, hlast⟩
  · exact .inl hboundary
  · right
    have hne : String.utf8EncodeChar c ≠ [] := by
      have := c.utf8Size_pos
      rw [← String.length_utf8EncodeChar] at this
      exact List.length_pos_iff.mp this
    exact ⟨⟨byteLength cs, k, (String.utf8EncodeChar c).head hne, .cut⟩, rfl, rfl, cs, c, ds, htext,
      rfl, List.head?_eq_some_head hne, hfirst, hlast⟩

end Lojban.Text.Utf8

namespace Lojban

open Text Utf8

/-! ## Nodes -/

theorem Text.Utf8.BoundaryAt.charSpan {source : String} {t : Tree} {n : ℕ}
    (h : BoundaryAt source.toList n (bound (encode source.toList).length t.start)) :
    t.charSpan source = .ok (n, n + t.text.length) := by
  have hlength : (source.toList.take n).length = n := by
    rw [List.length_take, min_eq_left h.le]
  rw [Tree.charSpan, charsBefore]
  simp only [h.decode_take, Except.map, hlength]

theorem Text.Utf8.Fault.CutsInto.charSpan {source : String} {t : Tree} {f : Utf8.Fault}
    (h : f.CutsInto source.toList (bound (encode source.toList).length t.start)) :
    t.charSpan source = .error f := by
  rw [Tree.charSpan, charsBefore]
  simp only [h.decode_take, Except.map]

/-- **A node has a span of characters exactly if it starts at one; else the character that it starts
within is cut off.** -/
theorem Tree.charSpan_iff (source : String) (t : Tree) :
    let k := bound (encode source.toList).length t.start
    (∀ span, t.charSpan source = .ok span ↔
      ∃ n, BoundaryAt source.toList n k ∧ span = (n, n + t.text.length)) ∧
    ∀ f, t.charSpan source = .error f ↔ f.CutsInto source.toList k := by
  intro k
  have hk : k ≤ byteLength source.toList := bound_le ..
  have hcases := boundaryAt_or_cutsInto hk
  constructor
  · intro span
    constructor
    · intro h
      rcases hcases with ⟨n, hn⟩ | ⟨f, hf⟩
      · exact ⟨n, hn, Except.ok.inj (h.symm.trans hn.charSpan)⟩
      · cases h.symm.trans hf.charSpan
    · rintro ⟨n, hn, rfl⟩
      exact hn.charSpan
  · intro f
    constructor
    · intro h
      rcases hcases with ⟨n, hn⟩ | ⟨g, hg⟩
      · cases h.symm.trans hn.charSpan
      · exact Except.error.inj (hg.charSpan.symm.trans h) ▸ hg
    · exact fun hf => hf.charSpan

/-- A node that starts at the second byte of its character has no span. -/
example : (Tree.node .word "i" (-1) 4 []).charSpan "mié" = .error ⟨2, 3, 0xC3, .cut⟩ := by
  decide

/-- **Characters are mapped to bytes, one to one and in order, and found again from there.** -/
theorem Tree.charSpan_offset (text : String) :
    let off : ℕ → ℤ := fun i => (ByteIndex.of text.toList).offset i
    StrictMonoOn off (Set.Iic text.length) ∧ off 0 = 0 ∧
    off text.length = byteLength text.toList ∧
    (∀ i ≤ text.length, off i = byteLength (text.toList.take i)) ∧
    ∀ i j, i ≤ j → j ≤ text.length →
      bytesBetween text (off i) (off j) = encode (slice text.toList i j) ∧
      ∀ tag children, (Tree.node tag (String.ofList (slice text.toList i j)) (off i) (off j)
        children).charSpan text = .ok (i, j) := by
  intro off
  have hlength : text.toList.length = text.length := String.length_toList
  have hoff : ∀ i ≤ text.length, off i = byteLength (text.toList.take i) :=
    fun i hi => ByteIndex.offset_natCast (hlength ▸ hi)
  refine ⟨?_, ?_, ?_, hoff, ?_⟩
  · intro i hi j hj hij
    rw [hoff i hi, hoff j hj, Nat.cast_lt]
    exact byteLength_take_lt text.toList hij (hlength ▸ hj)
  · rw [hoff 0 (Nat.zero_le _), List.take_zero]
    rfl
  · rw [hoff _ le_rfl, ← hlength, List.take_length]
  · intro i j hij hj
    have hj' : j ≤ text.toList.length := hlength ▸ hj
    refine ⟨bytesBetween_offset text hij hj', ?_⟩
    intro tag children
    have hboundary : BoundaryAt text.toList i (bound (encode text.toList).length (off i)) := by
      refine ⟨hij.trans hj', ?_⟩
      rw [hoff i (hij.trans hj), bound_natCast (byteLength_take_le_encode ..)]
    have hstop : i + (String.ofList (slice text.toList i j)).length = j := by
      rw [String.length_ofList, length_slice text.toList hj', Nat.add_sub_cancel' hij]
    rw [BoundaryAt.charSpan (n := i) hboundary]
    exact congrArg (fun stop => Except.ok (i, stop)) hstop

/-- The middle of a text with characters of one to four bytes. -/
theorem charSpan_offset_mixed :
    2 ≤ 4 ∧ 4 ≤ "aé€😀i".length ∧
      bytesBetween "aé€😀i" 3 10 = encode ['€', '😀'] ∧
      (Tree.node .word "€😀" 3 10 []).charSpan "aé€😀i" = .ok (2, 4) := by
  have hj : 4 ≤ "aé€😀i".length := by decide
  obtain ⟨hbytes, hspan⟩ := (Tree.charSpan_offset "aé€😀i").2.2.2.2 2 4 (by decide) hj
  exact ⟨by decide, hj, hbytes, hspan .word []⟩

end Lojban
