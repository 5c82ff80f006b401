import Mathlib
import Lojban.Proofs.Encodings
import Lojban.Proofs.LineEnds
import Lojban.Proofs.Loading
import Lojban.Text.Index

/-!
# Reading a list in chunks

A word list is decoded chunk by chunk, and what a chunk leaves over is decoded with the next one. A
fault counts bytes from the start of the piece that it is found in (`FoundIn`). Counted from the
start of the file it is the fault of the whole content. So a list that is read in chunks is the list
that is read as a whole, wherever the chunks end.

Main results:
* `exists_foundIn`, `FoundIn.decode_eq`: the fault in a piece, and where it lies in the file.
* `WordSet.load_as_a_whole`: what a list is loaded as, said of its whole content.
-/

namespace Lojban.Text.Utf8

/-! ## Specification -/

/-- `f` is the fault of the piece at offset `start` of `bs`, which is decoded in chunks of `size`
bytes. The piece is a chunk behind what the chunks in front of it leave over, or what the last one
leaves over. -/
inductive FoundIn (size : ℕ) (bs : List UInt8) (start : ℕ) (f : Fault) : Prop
  | chunk {n : ℕ} {text : List Char} {carry : List UInt8} (hn : n * size < bs.length)
      (hbefore : decodePiece (bs.take (n * size)) = .ok (text, carry))
      (hstart : start + carry.length = n * size)
      (hf : decodePiece (slice bs start ((n + 1) * size)) = .error f)
  | rest {text : List Char} {carry : List UInt8} (hbefore : decodePiece bs = .ok (text, carry))
      (hstart : start + carry.length = bs.length) (hf : decode (bs.drop start) = .error f)

/-! ## Faults in chunks -/

section Chunks

variable {size m start : ℕ} {bs carry : List UInt8} {text : List Char} {f : Fault}

/-- The first bytes consist of whole characters, and of what the next piece starts with. -/
theorem eq_append_of_decodePiece_take (hm : m ≤ bs.length)
    (h : decodePiece (bs.take m) = .ok (text, carry)) (hstart : start + carry.length = m) :
    bs = encode text ++ bs.drop start ∧ (encode text).length = start ∧
      bs.drop start = carry ++ bs.drop m := by
  have htake := eq_encode_append_of_decodePiece h
  have hlength : (encode text).length = start := by
    have := congrArg List.length htake
    rw [List.length_take_of_le hm, List.length_append] at this
    omega
  have hsplit : bs = encode text ++ (carry ++ bs.drop m) := by
    rw [← List.append_assoc, ← htake, List.take_append_drop]
  have hdrop : bs.drop start = carry ++ bs.drop m := by
    conv_lhs => rw [hsplit, ← hlength, List.drop_left]
  exact ⟨hdrop ▸ hsplit, hlength, hdrop⟩

/-- A fault behind whole characters is the fault of the whole, counted from there on. -/
theorem decode_eq_error_of_drop (h : bs = encode text ++ bs.drop start)
    (hlength : (encode text).length = start) (hf : decode (bs.drop start) = .error f) :
    decode bs = .error (f.shift start) := by
  rw [h, decode_encode_append, hf, hlength]
  rfl

/-- The fault of a piece is the fault of the whole, counted from the start of the piece on. -/
theorem FoundIn.decode_eq (h : FoundIn size bs start f) : decode bs = .error (f.shift start) := by
  cases h with
  | chunk hn hbefore hstart hf =>
    obtain ⟨hsplit, hlength, -⟩ := eq_append_of_decodePiece_take hn.le hbefore hstart
    exact decode_eq_error_of_drop hsplit hlength
      (decode_eq_error_of_piece (List.take_prefix _ _) hf)
  | rest hbefore hstart hf =>
    rw [← List.take_length (l := bs)] at hbefore
    obtain ⟨hsplit, hlength, -⟩ := eq_append_of_decodePiece_take le_rfl hbefore hstart
    exact decode_eq_error_of_drop hsplit hlength hf

/-- The next piece is what has been left over and the next chunk. -/
theorem slice_eq_append (hdrop : bs.drop start = carry ++ bs.drop m)
    (hstart : start + carry.length = m) (size : ℕ) :
    slice bs start (m + size) = carry ++ (bs.drop m).take size := by
  have hlength : m + size - start = carry.length + size := by omega
  rw [slice, hlength, hdrop, List.take_length_add_append]

/-- When the next piece has been read, so have the bytes up to its end. -/
theorem decodePiece_take_add {carry' : List UInt8} {text' : List Char}
    (h : decodePiece (bs.take m) = .ok (text, carry))
    (hpiece : decodePiece (carry ++ (bs.drop m).take size) = .ok (text', carry')) :
    decodePiece (bs.take (m + size)) = .ok (text ++ text', carry') := by
  rw [List.take_add, eq_encode_append_of_decodePiece h, List.append_assoc,
    decodePiece_encode_append, hpiece]
  rfl

theorem foundIn_of_chunk {n : ℕ} (hn : n * size < bs.length)
    (hbefore : decodePiece (bs.take (n * size)) = .ok (text, carry))
    (hf : decodePiece (carry ++ (bs.drop (n * size)).take size) = .error f) :
    FoundIn size bs (encode text).length f := by
  have hlength : (encode text).length + carry.length = n * size := by
    rw [← List.length_append, ← eq_encode_append_of_decodePiece hbefore,
      List.length_take_of_le hn.le]
  obtain ⟨-, -, hdrop⟩ := eq_append_of_decodePiece_take hn.le hbefore hlength
  rw [← slice_eq_append hdrop hlength, ← Nat.succ_mul] at hf
  exact .chunk hn hbefore hlength hf

theorem foundIn_of_rest (hbefore : decodePiece bs = .ok (text, carry))
    (hf : decode carry = .error f) : FoundIn size bs (encode text).length f := by
  have hbytes := eq_encode_append_of_decodePiece hbefore
  refine .rest hbefore ?_ ?_
  · rw [hbytes, List.length_append]
  · rwa [hbytes, List.drop_left]

/-- A fault in the chunks `left` behind the first `n` is found in one of them, or in what the last
one leaves over. -/
theorem exists_foundIn_of_decodeFrom (hsize : 0 < size) {n : ℕ} {left : List UInt8}
    (hleft : bs.drop (n * size) = left)
    (hbefore : decodePiece (bs.take (n * size)) = .ok (text, carry)) {read : List Char}
    (h : decodeFrom carry read (chunks size left) = .error f) : ∃ start, FoundIn size bs start f := by
  -- each chunk goes over from those that are left to those that have been read
  induction left using chunks.induct size generalizing n text carry read with
  | case1 =>
    rw [List.take_of_length_le (List.drop_eq_nil_iff.mp hleft)] at hbefore
    rw [chunks, if_pos rfl, decodeFrom] at h
    cases hdecode : decode carry with
    | ok rest => rw [hdecode] at h; cases h
    | error g =>
      rw [hdecode] at h
      cases h
      exact ⟨_, foundIn_of_rest hbefore hdecode⟩
  | case2 left hne hzero => exact absurd hzero hsize.ne'
  | case3 left hne hzero ih =>
    have hn : n * size < bs.length := by
      rw [← not_le, ← List.drop_eq_nil_iff, hleft]
      exact hne
    rw [chunks, if_neg hne, if_neg hzero, decodeFrom, ← hleft] at h
    cases hpiece : decodePiece (carry ++ (bs.drop (n * size)).take size) with
    | error g =>
      rw [hpiece] at h
      cases h
      exact ⟨_, foundIn_of_chunk hn hbefore hpiece⟩
    | ok next =>
      rw [hpiece, hleft] at h
      have hread := decodePiece_take_add hbefore hpiece
      rw [← Nat.succ_mul] at hread
      refine ih ?_ hread h
      rw [Nat.succ_mul, ← List.drop_drop, hleft]

/-- A fault of the chunks is found in one of the pieces. -/
theorem exists_foundIn (hsize : 0 < size) (h : decodeChunked size bs = .error f) :
    ∃ start, FoundIn size bs start f := by
  have hbefore : decodePiece (bs.take (0 * size)) = .ok ([], []) := by
    rw [Nat.zero_mul]
    rfl
  exact exists_foundIn_of_decodeFrom hsize (by rw [Nat.zero_mul, List.drop_zero]) hbefore h

end Chunks

end Lojban.Text.Utf8

namespace Lojban

open Text Utf8

/-! ## Entries, line by line -/

theorem headword?_dropRightWhile (marker : String) (line : List Char) :
    headword? marker (dropRightWhile isLineEnd line) = headword? marker line := by
  rw [headword?, firstField_dropRightWhile, headword?]

/-- The entries of a text are those of its lines, whatever ends these. -/
theorem Text.IsLines.entries_eq {ls : List (List Char)} {text : List Char} (h : IsLines ls text)
    (marker : String) : entries marker text = ls.filterMap (headword? marker) := by
  rw [isLines_iff.mp h, List.filterMap_map, entries]
  exact List.filterMap_congr fun line _ => (headword?_dropRightWhile marker line).symm

namespace WordSet

section Load

variable {view : DiskView} {path : Path} {bytes : List UInt8}
  (hread : (view.opening path).read path.route = .ok bytes) (marker : String)

include hread

theorem value_load_of_fault {f : Utf8.Fault} (hf : decodeChunked chunkBytes bytes = .error f) :
    (load view path marker).value = .error (LoadError.trouble ⟨path.text, .encoding f⟩) := by
  rw [value_load, content_of_fails (.encoding hread hf)]

theorem value_load_of_isLines {ls : List (List Char)} {text : List Char}
    (htext : decodeChunked chunkBytes bytes = .ok text) (hls : IsLines ls text) :
    (load view path marker).value =
      if ls.filterMap (headword? marker) = [] then
        .error (LoadError.trouble ⟨path.text, .noEntries⟩)
      else .ok (Std.TreeSet.ofList (ls.filterMap (headword? marker))) := by
  rw [value_load, content_of_reads ⟨bytes, hread, htext⟩, value_ofText, hls.entries_eq]

theorem value_load_ne_fault {text : List Char} (htext : decodeChunked chunkBytes bytes = .ok text)
    (f : Utf8.Fault) :
    (load view path marker).value ≠ .error (LoadError.trouble ⟨path.text, .encoding f⟩) := by
  obtain ⟨ls, hls⟩ := exists_isLines text
  rw [value_load_of_isLines hread marker htext hls]
  split_ifs <;> rintro ⟨⟩

end Load

/-- **A list that is read in chunks is the list that is read as a whole.** -/
theorem load_as_a_whole {view : DiskView} {path : Path} {bytes : List UInt8}
    (hread : (view.opening path).read path.route = .ok bytes) (marker : String) :
    let outcome := (load view path marker).value
    ((∃ f, outcome = .error (LoadError.trouble ⟨path.text, .encoding f⟩)) ↔
      ∀ text, bytes ≠ encode text) ∧
    (∀ f, outcome = .error (LoadError.trouble ⟨path.text, .encoding f⟩) →
      ∃ start, FoundIn chunkBytes bytes start f ∧ decode bytes = .error (f.shift start)) ∧
    ∀ text ls, bytes = encode text → IsLines ls text →
      ((∀ l ∈ ls, headword? marker l = none) →
        outcome = .error (LoadError.trouble ⟨path.text, .noEntries⟩)) ∧
      ((∃ l ∈ ls, headword? marker l ≠ none) →
        ∃ words, outcome = .ok words ∧ ∀ w, w ∈ words ↔ ∃ l ∈ ls, headword? marker l = some w) := by
  intro outcome
  refine ⟨?_, ?_, ?_⟩
  · cases hdecode : decodeChunked chunkBytes bytes with
    | error f =>
      refine iff_of_true ⟨f, value_load_of_fault hread marker hdecode⟩ ?_
      intro text htext
      cases hdecode.symm.trans (decodeChunked_eq_ok_iff.mpr htext)
    | ok text =>
      refine iff_of_false ?_ fun h => h text (decodeChunked_eq_ok_iff.mp hdecode)
      rintro ⟨f, hf⟩
      exact value_load_ne_fault hread marker hdecode f hf
  · intro f hf
    cases hdecode : decodeChunked chunkBytes bytes with
    | error g =>
      cases (value_load_of_fault hread marker hdecode).symm.trans hf
      obtain ⟨start, hfound⟩ := exists_foundIn (by decide) hdecode
      exact ⟨start, hfound, hfound.decode_eq⟩
    | ok text => exact absurd hf (value_load_ne_fault hread marker hdecode f)
  · intro text ls htext hls
    have houtcome : outcome = _ :=
      value_load_of_isLines hread marker (decodeChunked_eq_ok_iff.mpr htext) hls
    constructor
    · intro hnone
      rw [houtcome, if_pos (List.filterMap_eq_nil_iff.mpr hnone)]
    · rintro ⟨l, hl, hsome⟩
      have hne : ls.filterMap (headword? marker) ≠ [] :=
        fun hnil => hsome (List.filterMap_eq_nil_iff.mp hnil l hl)
      refine ⟨_, houtcome.trans (if_neg hne), ?_⟩
      intro w
      rw [Std.TreeSet.mem_ofList, List.contains_iff_mem, List.mem_filterMap]

/-- A list that ends with the first two bytes of a surrogate: they are decoded alone. -/
theorem load_as_a_whole_surrogate :
    let bytes : List UInt8 := [0x6D, 0x69, 0x0A, 0xED, 0xA0]
    let path : Path := ⟨.none, ["cmavo.txt"]⟩
    let view := Disk.still (Disk.put {} ["cmavo.txt"] (.file bytes))
    let fault : Utf8.Fault := ⟨0, 1, 0xED, .badContinuation⟩
    (view.opening path).read path.route = .ok bytes ∧
      (load view path "*").value = .error (LoadError.trouble ⟨"cmavo.txt", .encoding fault⟩) ∧
      FoundIn chunkBytes bytes 3 fault := by
  intro bytes path view fault
  have hread : (view.opening path).read path.route = .ok bytes := by cbv
  have hf : decodeChunked chunkBytes bytes = .error fault := by cbv
  have hvalue := value_load_of_fault hread "*" hf
  obtain ⟨start, hfound, hdecode⟩ := (load_as_a_whole hread "*").2.1 fault hvalue
  have hwhole : decode bytes = .error ⟨3, 4, 0xED, .badContinuation⟩ := by decide
  have hstart : start = 3 := by
    rw [hwhole] at hdecode
    have := congrArg Utf8.Fault.first (Except.error.inj hdecode)
    exact this.symm
  exact ⟨hread, hvalue, hstart ▸ hfound⟩

end WordSet

end Lojban
