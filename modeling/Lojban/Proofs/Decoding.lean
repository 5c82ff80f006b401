import Mathlib.Tactic
import Lojban.Text.Utf8

/-!
# Decoding in chunks

A decoder that stops in the middle of a byte string and starts anew with what it left over goes on
as if it had not stopped, except that it counts bytes from where it started anew.

Main results:
* `decode_eq_decodeChunked`: decoding in chunks is decoding as a whole, up to the offsets in a fault.
* `decode_encode`, `decodeChunked_encode`: both read every text from its bytes.
-/

namespace Lojban.Text.Utf8

/-! ## Specification -/

/-- The same fault, `k` bytes further on. -/
def Fault.shift (k : ℕ) (f : Fault) : Fault :=
  { f with first := k + f.first, stop := k + f.stop }

namespace Decoder

/-- The same decoder with `k` bytes and the characters `read` in front of what it has read. -/
def shift (k : ℕ) (read : List Char) (d : Decoder) : Decoder :=
  ⟨k + d.offset, d.pending, d.read ++ read⟩

/-- The decoder that has read nothing but the incomplete sequence `bs`. -/
def waiting (bs : List UInt8) : Decoder :=
  ⟨bs.length, bs, []⟩

/-- What is pending has been read, and reading it again leaves it pending again. -/
structure Resumes (d : Decoder) : Prop where
  length_le : d.pending.length ≤ d.offset
  reread : feedAll {} d.pending = .ok (waiting d.pending)

/-! ## Steps -/

theorem isLead_iff {b : UInt8} : isLead b = true ↔ 0xC2 ≤ b.toNat ∧ b.toNat ≤ 0xF4 := by
  simp only [isLead, Bool.and_eq_true, decide_eq_true_eq, UInt8.le_iff_toNat_le]
  rfl

section Steps

variable {n : ℕ} {read : List Char} {lead b : UInt8} {rest : List UInt8}

theorem feed_ascii (h : b < 0x80) :
    feed ⟨n, [], read⟩ b = .ok ⟨n + 1, [], Char.ofNat b.toNat :: read⟩ := by
  rw [feed]
  exact if_pos h

theorem feed_lead (h : isLead b = true) : feed ⟨n, [], read⟩ b = .ok ⟨n + 1, [b], read⟩ := by
  have hascii : ¬ b < 0x80 := by
    rw [isLead_iff] at h
    rw [UInt8.lt_iff_toNat_lt, not_lt]
    exact le_trans (by decide) h.1
  simp only [feed, if_neg hascii, h, if_true]

theorem feed_more (h : continues lead rest b = true) (hlen : rest.length + 2 < sequenceLength lead) :
    feed ⟨n, lead :: rest, read⟩ b = .ok ⟨n + 1, lead :: (rest ++ [b]), read⟩ := by
  simp only [feed, h, if_true, if_neg hlen.ne]

theorem feed_last (h : continues lead rest b = true) (hlen : rest.length + 2 = sequenceLength lead) :
    feed ⟨n, lead :: rest, read⟩ b = .ok ⟨n + 1, [], charOf lead (rest ++ [b]) :: read⟩ := by
  simp only [feed, h, if_true, if_pos hlen]

end Steps

/-! ## Starting anew -/

theorem fault_shift {d : Decoder} (k : ℕ) (read : List Char) (lead : UInt8) {rest : List UInt8}
    (h : rest.length + 1 ≤ d.offset) (reason : Reason) :
    (d.shift k read).fault lead rest reason = (d.fault lead rest reason).shift k := by
  have hfirst : k + d.offset - (rest.length + 1) = k + (d.offset - (rest.length + 1)) := by omega
  simp only [fault, shift, Fault.shift, hfirst]
  split_ifs <;> rfl

theorem feed_shift {d : Decoder} (k : ℕ) (read : List Char) (h : d.pending.length ≤ d.offset)
    (b : UInt8) :
    (d.shift k read).feed b = ((d.feed b).map (shift k read)).mapError (Fault.shift k) := by
  obtain ⟨offset, pending, done⟩ := d
  cases pending with
  | nil =>
    simp only [feed, shift]
    split_ifs <;> rfl
  | cons lead rest =>
    have hfault := fault_shift k read lead h .badContinuation
    simp only [shift] at hfault
    simp only [feed, shift, hfault]
    split_ifs <;> rfl

theorem length_pending_le {d d' : Decoder} {b : UInt8} (h : d.pending.length ≤ d.offset)
    (hfeed : d.feed b = .ok d') : d'.pending.length ≤ d'.offset := by
  obtain ⟨offset, pending, done⟩ := d
  cases pending with
  | nil =>
    simp only [feed] at hfeed
    split_ifs at hfeed <;> cases hfeed <;> simp
  | cons lead rest =>
    simp only [feed] at hfeed
    split_ifs at hfeed <;> cases hfeed <;> simp at h ⊢
    omega

theorem feedAll_cons (d : Decoder) (b : UInt8) (bs : List UInt8) :
    d.feedAll (b :: bs) = d.feed b >>= fun d => d.feedAll bs := by
  rw [feedAll, List.foldlM_cons]
  rfl

theorem feedAll_cons_eq_ok_iff {d d' : Decoder} {b : UInt8} {bs : List UInt8} :
    d.feedAll (b :: bs) = .ok d' ↔ ∃ next, d.feed b = .ok next ∧ next.feedAll bs = .ok d' := by
  rw [feedAll_cons]
  cases d.feed b <;> simp [Bind.bind, Except.bind]

theorem feedAll_append_eq_ok_iff {d d' : Decoder} {bs cs : List UInt8} :
    d.feedAll (bs ++ cs) = .ok d' ↔
      ∃ next, d.feedAll bs = .ok next ∧ next.feedAll cs = .ok d' := by
  rw [feedAll_append]
  cases d.feedAll bs <;> simp [Bind.bind, Except.bind]

/-- What was read before only moves the offsets and stands in front of the text. -/
theorem feedAll_shift {d : Decoder} (k : ℕ) (read : List Char) (h : d.pending.length ≤ d.offset)
    (bs : List UInt8) :
    (d.shift k read).feedAll bs = ((d.feedAll bs).map (shift k read)).mapError (Fault.shift k) := by
  induction bs generalizing d with
  | nil => rfl
  | cons b bs ih =>
    rw [feedAll_cons, feedAll_cons, feed_shift k read h]
    cases hfeed : d.feed b with
    | error f => rfl
    | ok d' => exact ih (length_pending_le h hfeed)

theorem finish_shift {d : Decoder} (k : ℕ) (read : List Char) (h : d.pending.length ≤ d.offset) :
    (d.shift k read).finish =
      (d.finish.map (read.reverse ++ ·)).mapError (Fault.shift k) := by
  obtain ⟨offset, pending, done⟩ := d
  cases pending with
  | nil => simp [finish, shift, Except.map, Except.mapError]
  | cons lead rest =>
    have hfault := fault_shift k read lead h .cut
    exact congrArg Except.error hfault

namespace Resumes

variable {d d' : Decoder}

theorem start : Resumes {} := ⟨le_rfl, rfl⟩

theorem eq_shift (h : d.Resumes) :
    d = (waiting d.pending).shift (d.offset - d.pending.length) d.read := by
  have hoffset := Nat.sub_add_cancel h.length_le
  rw [shift, waiting, hoffset, List.nil_append]

theorem feed {b : UInt8} (h : d.Resumes) (hfeed : d.feed b = .ok d') : d'.Resumes := by
  refine ⟨length_pending_le h.length_le hfeed, ?_⟩
  obtain ⟨offset, pending, read⟩ := d
  cases pending with
  | nil =>
    simp only [Decoder.feed] at hfeed
    split_ifs at hfeed with hascii hlead <;> cases hfeed
    · rfl
    · rw [feedAll_cons, feed_lead hlead]
      rfl
  | cons lead rest =>
    simp only [Decoder.feed] at hfeed
    split_ifs at hfeed with hcontinues hlen <;> cases hfeed
    · rfl
    · have hreread : feedAll {} (lead :: rest) = .ok (waiting (lead :: rest)) := h.reread
      show feedAll {} ((lead :: rest) ++ [b]) = _
      rw [feedAll_append, hreread]
      show (waiting (lead :: rest)).feedAll [b] = _
      rw [feedAll_cons, waiting, Decoder.feed]
      simp only [hcontinues, if_true, if_neg hlen]
      simp [waiting, Bind.bind, Except.bind]

theorem feedAll {bs : List UInt8} (h : d.Resumes) (hfeed : d.feedAll bs = .ok d') :
    d'.Resumes := by
  induction bs generalizing d with
  | nil => cases hfeed; exact h
  | cons b bs ih =>
    obtain ⟨next, hnext, hrest⟩ := feedAll_cons_eq_ok_iff.mp hfeed
    exact ih (h.feed hnext) hrest

/-- Going on is starting anew with what is pending. -/
theorem feedAll_eq (h : d.Resumes) (bs : List UInt8) :
    d.feedAll bs = ((Decoder.feedAll {} (d.pending ++ bs)).map
      (shift (d.offset - d.pending.length) d.read)).mapError
        (Fault.shift (d.offset - d.pending.length)) := by
  rw [feedAll_append, h.reread]
  conv_lhs => rw [h.eq_shift]
  exact feedAll_shift _ _ le_rfl bs

end Resumes

end Decoder

/-! ## Chunks -/

open Decoder

theorem flatten_chunks {α : Type} (size : ℕ) (xs : List α) : (chunks size xs).flatten = xs := by
  induction xs using chunks.induct size with
  | case1 => simp [chunks]
  | case2 xs hne hsize => simp [chunks, hne, hsize]
  | case3 xs hne hsize ih =>
    rw [chunks, if_neg hne, if_neg hsize, List.flatten_cons, ih, List.take_append_drop]

theorem decode_eq (bs : List UInt8) : decode bs = Decoder.feedAll {} bs >>= finish := by
  rw [decode]
  cases Decoder.feedAll {} bs <;> rfl

/-- Reading the chunks that are left gives what `d` would give, up to the offsets in a fault. -/
theorem finish_eq_decodeFrom {d : Decoder} (h : d.Resumes) (cs : List (List UInt8)) :
    ∃ k, (d.feedAll cs.flatten >>= finish) =
      (decodeFrom d.pending d.read.reverse cs).mapError (Fault.shift k) := by
  induction cs generalizing d with
  | nil =>
    refine ⟨d.offset - d.pending.length, ?_⟩
    rw [decodeFrom, decode_eq, h.reread]
    conv_lhs => rw [h.eq_shift]
    exact finish_shift _ _ le_rfl
  | cons c cs ih =>
    have hfeed := h.feedAll_eq c
    rw [List.flatten_cons, feedAll_append, decodeFrom, decodePiece]
    cases hpiece : Decoder.feedAll {} (d.pending ++ c) with
    | error f =>
      rw [hpiece] at hfeed
      exact ⟨_, by rw [hfeed]; rfl⟩
    | ok e =>
      rw [hpiece] at hfeed
      obtain ⟨k, hk⟩ := ih (h.feedAll hfeed)
      refine ⟨k, ?_⟩
      rw [hfeed]
      rw [shift, List.reverse_append] at hk
      exact hk

/-- **Decoding in chunks is decoding as a whole**, up to the offsets in a fault. -/
theorem decode_eq_decodeChunked (size : ℕ) (bs : List UInt8) :
    ∃ k, decode bs = (decodeChunked size bs).mapError (Fault.shift k) := by
  obtain ⟨k, hk⟩ := finish_eq_decodeFrom .start (chunks size bs)
  rw [flatten_chunks, ← decode_eq] at hk
  exact ⟨k, hk⟩

/-! ## Encoded texts -/

/-- A byte that stands third or fourth in a sequence. -/
def IsTail (b : UInt8) : Prop :=
  0x80 ≤ b.toNat ∧ b.toNat ≤ 0xBF

theorem sequenceLength_eq (b : UInt8) : sequenceLength b =
    if b.toNat < 0x80 then 1 else if b.toNat < 0xE0 then 2 else if b.toNat < 0xF0 then 3 else 4 := by
  simp only [sequenceLength, UInt8.lt_iff_toNat_lt]
  rfl

theorem isSecond_iff {lead b : UInt8} : isSecond lead b = true ↔
    (if lead.toNat = 0xE0 then 0xA0 else if lead.toNat = 0xF0 then 0x90 else 0x80) ≤ b.toNat ∧
      b.toNat ≤ (if lead.toNat = 0xED then 0x9F else if lead.toNat = 0xF4 then 0x8F else 0xBF) := by
  simp only [isSecond, Bool.and_eq_true, decide_eq_true_eq, UInt8.le_iff_toNat_le,
    ← UInt8.toNat_inj]
  split_ifs <;> simp_all

section Sequences

variable {n : ℕ} {read : List Char} {lead second : UInt8}

theorem continues_second (hs : isSecond lead second = true) : continues lead [] second = true := by
  rw [continues, hs, Bool.true_or]

/-- No surrogate has a second byte that may stand there. -/
theorem continues_tail (hs : isSecond lead second = true) (rest : List UInt8) {b : UInt8}
    (hb : IsTail b) : continues lead (second :: rest) b = true := by
  have hsurrogate : isSurrogate lead (second :: rest) = false := by
    rw [isSecond_iff] at hs
    rw [Bool.eq_false_iff]
    intro h
    simp only [isSurrogate, Bool.and_eq_true, decide_eq_true_eq, UInt8.le_iff_toNat_le] at h
    obtain ⟨⟨rfl, h⟩, -⟩ := h
    exact absurd (h.trans hs.2) (by decide)
  rw [continues, hsurrogate]
  simpa [UInt8.le_iff_toNat_le] using And.intro hb.1 hb.2

/-- The bytes that complete a sequence complete a character. -/
theorem feedAll_tails (hs : isSecond lead second = true) {rest tail : List UInt8}
    (htail : ∀ b ∈ tail, IsTail b) (hne : tail ≠ [])
    (hlen : rest.length + tail.length + 2 = sequenceLength lead) :
    feedAll ⟨n, lead :: second :: rest, read⟩ tail =
      .ok ⟨n + tail.length, [], charOf lead (second :: (rest ++ tail)) :: read⟩ := by
  -- the bytes read go over from `tail` to `rest`, one at a time
  induction tail generalizing n rest with
  | nil => exact absurd rfl hne
  | cons b tail ih =>
    obtain ⟨hb, htail⟩ := List.forall_mem_cons.mp htail
    have hb := continues_tail hs rest hb
    simp only [List.length_cons] at hlen
    rw [feedAll_cons]
    by_cases hend : tail = []
    · subst hend
      rw [feed_last hb (by simpa using hlen)]
      rfl
    · have hpos := List.length_pos_iff.mpr hend
      rw [feed_more hb (by simp only [List.length_cons]; omega)]
      have hlen' : (rest ++ [b]).length + tail.length + 2 = sequenceLength lead := by
        rw [List.length_append, List.length_singleton]
        omega
      refine (ih htail hend hlen').trans ?_
      rw [List.append_assoc, List.singleton_append, Nat.add_right_comm, Nat.add_assoc,
        List.length_cons]

theorem feedAll_sequence (hl : isLead lead = true) (hs : isSecond lead second = true)
    {tail : List UInt8} (htail : ∀ b ∈ tail, IsTail b)
    (hlen : tail.length + 2 = sequenceLength lead) :
    feedAll ⟨n, [], read⟩ (lead :: second :: tail) =
      .ok ⟨n + (tail.length + 2), [], charOf lead (second :: tail) :: read⟩ := by
  rw [feedAll_cons, feed_lead hl]
  show feedAll ⟨n + 1, [lead], read⟩ (second :: tail) = _
  rw [feedAll_cons]
  by_cases hend : tail = []
  · subst hend
    rw [feed_last (continues_second hs) (by simpa using hlen)]
    rfl
  · have hpos := List.length_pos_iff.mpr hend
    rw [feed_more (continues_second hs) (by simp only [List.length_nil]; omega)]
    have hlen' : ([] : List UInt8).length + tail.length + 2 = sequenceLength lead := by
      rw [List.length_nil, Nat.zero_add, hlen]
    refine (feedAll_tails hs htail hend hlen').trans ?_
    rw [List.nil_append, Nat.add_assoc, Nat.add_assoc, ← Nat.add_assoc 1, Nat.add_comm (1 + 1)]

end Sequences

section Characters

/-- The byte for the last six bits of `m`, as it stands behind the first byte of a character. -/
def tailByte (m : ℕ) : UInt8 :=
  .ofNat (m % 64 + 128)

theorem toNat_tailByte (m : ℕ) : (tailByte m).toNat = m % 64 + 128 :=
  UInt8.toNat_ofNat_of_lt (show m % 64 + 128 < 256 by omega)

theorem isTail_tailByte (m : ℕ) : IsTail (tailByte m) := by
  rw [IsTail, toNat_tailByte]
  omega

variable (n : ℕ) (read : List Char) {v : ℕ}

theorem feedAll_one_byte (h : v < 0x80) :
    feedAll ⟨n, [], read⟩ [.ofNat v] = .ok ⟨n + 1, [], Char.ofNat v :: read⟩ := by
  have hv : (UInt8.ofNat v).toNat = v := UInt8.toNat_ofNat_of_lt (show v < 256 by omega)
  have hascii : UInt8.ofNat v < 0x80 := by
    rw [UInt8.lt_iff_toNat_lt, hv]
    exact h
  rw [feedAll_cons, feed_ascii hascii, hv]
  rfl

/-- The number that the bytes behind a first byte stand for. -/
theorem charOf_bytes (lead : ℕ) (hlead : lead < 256) (ms : List ℕ)
    (hlen : ms.length + 1 = if lead < 0xE0 then 2 else if lead < 0xF0 then 3 else 4) :
    charOf (.ofNat lead) (ms.map tailByte) =
      Char.ofNat (ms.foldl (fun v m => v * 64 + m % 64)
        (lead - if lead < 0xE0 then 0xC0 else if lead < 0xF0 then 0xE0 else 0xF0)) := by
  have htoNat : (UInt8.ofNat lead).toNat = lead := UInt8.toNat_ofNat_of_lt hlead
  simp only [charOf, htoNat, List.length_map, List.foldl_map, toNat_tailByte, Nat.add_sub_cancel]
  split_ifs at hlen ⊢ with h2 h3
  · rw [show ms.length = 1 by omega]
    rfl
  · rw [show ms.length = 2 by omega]
    rfl
  · rw [show ms.length = 3 by omega]
    rfl

/-- A first byte is followed by as many bytes as it asks for; the second must be in its range. -/
theorem feedAll_bytes (lead second : ℕ) (tail : List ℕ) (hlead : 0xC2 ≤ lead ∧ lead ≤ 0xF4)
    (hsecond : (if lead = 0xE0 then 0xA0 else if lead = 0xF0 then 0x90 else 0x80) ≤
        second % 64 + 128 ∧
      second % 64 + 128 ≤ if lead = 0xED then 0x9F else if lead = 0xF4 then 0x8F else 0xBF)
    (hlen : tail.length + 2 = if lead < 0xE0 then 2 else if lead < 0xF0 then 3 else 4) :
    feedAll ⟨n, [], read⟩ (.ofNat lead :: tailByte second :: tail.map tailByte) =
      .ok ⟨n + (tail.length + 2), [], Char.ofNat
        ((second :: tail).foldl (fun v m => v * 64 + m % 64)
          (lead - if lead < 0xE0 then 0xC0 else if lead < 0xF0 then 0xE0 else 0xF0)) :: read⟩ := by
  have htoNat : (UInt8.ofNat lead).toNat = lead :=
    UInt8.toNat_ofNat_of_lt (show lead < 256 by omega)
  have hisLead : isLead (.ofNat lead) = true := by rwa [isLead_iff, htoNat]
  have hisSecond : isSecond (.ofNat lead) (tailByte second) = true := by
    rwa [isSecond_iff, htoNat, toNat_tailByte]
  have htail : ∀ b ∈ tail.map tailByte, IsTail b := by
    rw [List.forall_mem_map]
    exact fun m _ => isTail_tailByte m
  have hlength : (tail.map tailByte).length + 2 = sequenceLength (.ofNat lead) := by
    rw [List.length_map, sequenceLength_eq, htoNat, if_neg (by omega), hlen]
  rw [feedAll_sequence hisLead hisSecond htail hlength, List.length_map, ← List.map_cons,
    charOf_bytes lead (by omega) (second :: tail) hlen]

/-- The bytes of a character are read as this character. -/
theorem feedAll_utf8EncodeChar (c : Char) :
    feedAll ⟨n, [], read⟩ (String.utf8EncodeChar c) =
      .ok ⟨n + (String.utf8EncodeChar c).length, [], c :: read⟩ := by
  have hc : Char.ofNat c.val.toNat = c := Char.ofNat_toNat c
  have hvalid : c.val.toNat < 0xD800 ∨ 0xDFFF < c.val.toNat ∧ c.val.toNat < 0x110000 := c.valid
  unfold String.utf8EncodeChar
  generalize c.val.toNat = v at hc hvalid ⊢
  subst hc
  dsimp only
  split_ifs with h1 h2 h3
  · exact feedAll_one_byte n read (by omega)
  -- in each of the other cases `hv` puts the number together from its digits to the base 64
  · have hv : (v / 64 % 32 + 192 - 0xC0) * 64 + v % 64 = v := by omega
    have hbytes := feedAll_bytes n read (v / 64 % 32 + 192) v [] (by omega)
      (by split_ifs <;> omega) (by rw [if_pos (by omega)]; rfl)
    rw [if_pos (by omega), List.foldl_cons, List.foldl_nil, hv] at hbytes
    exact hbytes
  · have hv : ((v / 4096 % 16 + 224 - 0xE0) * 64 + v / 64 % 64) * 64 + v % 64 = v := by omega
    have hbytes := feedAll_bytes n read (v / 4096 % 16 + 224) (v / 64) [v] (by omega)
      (by split_ifs <;> omega) (by rw [if_neg (by omega), if_pos (by omega)]; rfl)
    rw [if_neg (by omega), if_pos (by omega), List.foldl_cons, List.foldl_cons, List.foldl_nil,
      hv] at hbytes
    exact hbytes
  · have hv : (((v / 262144 % 8 + 240 - 0xF0) * 64 + v / 4096 % 64) * 64 + v / 64 % 64) * 64 +
        v % 64 = v := by omega
    have hbytes := feedAll_bytes n read (v / 262144 % 8 + 240) (v / 4096) [v / 64, v] (by omega)
      (by split_ifs <;> omega) (by rw [if_neg (by omega), if_neg (by omega)]; rfl)
    rw [if_neg (by omega), if_neg (by omega), List.foldl_cons, List.foldl_cons, List.foldl_cons,
      List.foldl_nil, hv] at hbytes
    exact hbytes

theorem feedAll_encode (cs : List Char) :
    feedAll ⟨n, [], read⟩ (encode cs) = .ok ⟨n + (encode cs).length, [], cs.reverse ++ read⟩ := by
  induction cs generalizing n read with
  | nil => rfl
  | cons c cs ih =>
    rw [encode_cons, feedAll_append, feedAll_utf8EncodeChar]
    show feedAll ⟨n + (String.utf8EncodeChar c).length, [], c :: read⟩ (encode cs) = _
    rw [ih, List.length_append, List.reverse_cons, List.append_assoc, Nat.add_assoc]
    rfl

end Characters

/-- Every text is read from its bytes. -/
theorem decode_encode (cs : List Char) : decode (encode cs) = .ok cs := by
  rw [decode_eq, feedAll_encode]
  simp [Bind.bind, Except.bind, finish]

/-- Every text is read from its bytes, wherever these are cut. -/
theorem decodeChunked_encode (size : ℕ) (cs : List Char) :
    decodeChunked size (encode cs) = .ok cs := by
  obtain ⟨k, hk⟩ := decode_eq_decodeChunked size (encode cs)
  rw [decode_encode] at hk
  cases hchunked : decodeChunked size (encode cs) with
  | ok text => rw [hchunked] at hk; exact hk.symm
  | error f => rw [hchunked] at hk; cases hk

end Lojban.Text.Utf8
