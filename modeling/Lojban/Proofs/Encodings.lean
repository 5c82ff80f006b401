import Lojban.Proofs.Decoding

/-!
# What can be decoded

A decoder keeps track of every byte: those it has read are the bytes of its characters and behind
them the incomplete sequence that is pending (`Decoder.Accounts`). So what is decoded is encoded
again as the same bytes, and the bytes that can be decoded are those of texts.

Main results:
* `decode_eq_ok_iff`, `decodeChunked_eq_ok_iff`: which bytes are decoded, and as what.
* `decode_encode_append`, `decodePiece_encode_append`: behind whole characters, reading starts anew.
* `decode_cut`: bytes that end within a character are at fault from its first byte on.
-/

namespace Lojban.Text.Utf8

open Decoder

/-! ## Specification -/

/-- Each byte of the list may stand in its place behind `lead`. -/
inductive Continued (lead : UInt8) : List UInt8 → Prop
  | nil : Continued lead []
  | concat {tail : List UInt8} {b : UInt8} (h : Continued lead tail)
      (hb : continues lead tail b = true) : Continued lead (tail ++ [b])

/-- `d` has read the bytes `bs`, and what is pending starts a character. -/
structure Decoder.Accounts (d : Decoder) (bs : List UInt8) : Prop where
  bytes_eq : bs = encode d.read.reverse ++ d.pending
  pending : ∀ lead rest, d.pending = lead :: rest →
    isLead lead = true ∧ Continued lead rest ∧ rest.length + 1 < sequenceLength lead

/-! ## Sequences -/

theorem continued_concat_iff {lead b : UInt8} (tail : List UInt8) :
    Continued lead (tail ++ [b]) ↔ Continued lead tail ∧ continues lead tail b = true := by
  refine ⟨?_, fun h => .concat h.1 h.2⟩
  generalize heq : tail ++ [b] = all
  intro h
  cases h with
  | nil => simp at heq
  | concat h hb =>
    obtain ⟨rfl, hlast⟩ := List.append_inj' heq rfl
    obtain rfl := List.singleton_inj.mp hlast
    exact ⟨h, hb⟩

theorem continues_second_iff {lead b : UInt8} :
    continues lead [] b = true ↔ isSecond lead b = true ∨ isSurrogate lead [b] = true := by
  rw [continues, Bool.or_eq_true]

theorem continues_tail_iff {lead second b : UInt8} {rest : List UInt8} :
    continues lead (second :: rest) b = true ↔
      isSurrogate lead (second :: rest) = false ∧ IsTail b := by
  simp only [continues, Bool.and_eq_true, Bool.not_eq_true', decide_eq_true_eq,
    UInt8.le_iff_toNat_le, and_assoc]
  rfl

/-- The bytes of a character by its number. -/
theorem utf8EncodeChar_ofNat {v : ℕ} (hv : v.isValidChar) :
    String.utf8EncodeChar (Char.ofNat v) =
      if v ≤ 0x7f then [.ofNat v]
      else if v ≤ 0x7ff then [.ofNat (v / 64 % 32 + 192), .ofNat (v % 64 + 128)]
      else if v ≤ 0xffff then
        [.ofNat (v / 4096 % 16 + 224), .ofNat (v / 64 % 64 + 128), .ofNat (v % 64 + 128)]
      else [.ofNat (v / 262144 % 8 + 240), .ofNat (v / 4096 % 64 + 128),
        .ofNat (v / 64 % 64 + 128), .ofNat (v % 64 + 128)] := by
  have hval : (Char.ofNat v).val.toNat = v := by
    rw [Char.ofNat, dif_pos hv]
    rfl
  simp only [String.utf8EncodeChar, hval]

theorem ofNat_eq {n : ℕ} {b : UInt8} (h : n = b.toNat) : UInt8.ofNat n = b := by
  rw [h, UInt8.ofNat_toNat]

theorem utf8EncodeChar_ascii {b : UInt8} (h : b < 0x80) :
    String.utf8EncodeChar (Char.ofNat b.toNat) = [b] := by
  have hle : b.toNat ≤ 0x7f := Nat.le_of_lt_succ (UInt8.lt_iff_toNat_lt.mp h)
  rw [utf8EncodeChar_ofNat (.inl (by omega)), if_pos hle, UInt8.ofNat_toNat]

theorem isTail_of_isSecond {lead second : UInt8} (h : isSecond lead second = true) :
    IsTail second := by
  rw [isSecond_iff] at h
  rw [IsTail]
  split_ifs at h <;> omega

section Sequences

variable {lead second third fourth : UInt8}

theorem utf8EncodeChar_charOf_two (hlead : isLead lead = true)
    (hsecond : isSecond lead second = true) (hlen : sequenceLength lead = 2) :
    String.utf8EncodeChar (charOf lead [second]) = [lead, second] := by
  have hl : 0xC2 ≤ lead.toNat ∧ lead.toNat < 0xE0 := by
    rw [isLead_iff] at hlead
    rw [sequenceLength_eq] at hlen
    split_ifs at hlen <;> omega
  obtain ⟨hs, hs'⟩ := isTail_of_isSecond hsecond
  have hchar : charOf lead [second] =
      Char.ofNat ((lead.toNat - 0xC0) * 64 + (second.toNat - 0x80)) := rfl
  rw [hchar, utf8EncodeChar_ofNat (.inl (by omega)), if_neg (by omega), if_pos (by omega),
    ofNat_eq (b := lead) (by omega), ofNat_eq (b := second) (by omega)]

theorem utf8EncodeChar_charOf_three (hsecond : isSecond lead second = true)
    (hthird : IsTail third) (hlen : sequenceLength lead = 3) :
    String.utf8EncodeChar (charOf lead [second, third]) = [lead, second, third] := by
  have hl : 0xE0 ≤ lead.toNat ∧ lead.toNat < 0xF0 := by
    rw [sequenceLength_eq] at hlen
    split_ifs at hlen <;> omega
  obtain ⟨hs, hs'⟩ := isTail_of_isSecond hsecond
  obtain ⟨ht, ht'⟩ := hthird
  -- the range of the second byte rules out long forms and surrogates
  have hrange : (lead.toNat = 0xE0 → 0xA0 ≤ second.toNat) ∧
      (lead.toNat = 0xED → second.toNat ≤ 0x9F) := by
    rw [isSecond_iff] at hsecond
    split_ifs at hsecond <;> omega
  have hchar : charOf lead [second, third] = Char.ofNat
      (((lead.toNat - 0xE0) * 64 + (second.toNat - 0x80)) * 64 + (third.toNat - 0x80)) := rfl
  have hvalid : (((lead.toNat - 0xE0) * 64 + (second.toNat - 0x80)) * 64 +
      (third.toNat - 0x80)).isValidChar := by
    unfold Nat.isValidChar
    omega
  rw [hchar, utf8EncodeChar_ofNat hvalid, if_neg (by omega), if_neg (by omega),
    if_pos (by omega), ofNat_eq (b := lead) (by omega), ofNat_eq (b := second) (by omega),
    ofNat_eq (b := third) (by omega)]

theorem utf8EncodeChar_charOf_four (hlead : isLead lead = true)
    (hsecond : isSecond lead second = true) (hthird : IsTail third) (hfourth : IsTail fourth)
    (hlen : sequenceLength lead = 4) :
    String.utf8EncodeChar (charOf lead [second, third, fourth]) =
      [lead, second, third, fourth] := by
  have hl : 0xF0 ≤ lead.toNat ∧ lead.toNat ≤ 0xF4 := by
    rw [isLead_iff] at hlead
    rw [sequenceLength_eq] at hlen
    split_ifs at hlen <;> omega
  obtain ⟨hs, hs'⟩ := isTail_of_isSecond hsecond
  obtain ⟨ht, ht'⟩ := hthird
  obtain ⟨hf, hf'⟩ := hfourth
  -- the range of the second byte rules out long forms and numbers past the last character
  have hrange : (lead.toNat = 0xF0 → 0x90 ≤ second.toNat) ∧
      (lead.toNat = 0xF4 → second.toNat ≤ 0x8F) := by
    rw [isSecond_iff] at hsecond
    split_ifs at hsecond <;> omega
  have hchar : charOf lead [second, third, fourth] = Char.ofNat
      ((((lead.toNat - 0xF0) * 64 + (second.toNat - 0x80)) * 64 + (third.toNat - 0x80)) * 64 +
        (fourth.toNat - 0x80)) := rfl
  have hvalid : ((((lead.toNat - 0xF0) * 64 + (second.toNat - 0x80)) * 64 +
      (third.toNat - 0x80)) * 64 + (fourth.toNat - 0x80)).isValidChar := by
    unfold Nat.isValidChar
    omega
  rw [hchar, utf8EncodeChar_ofNat hvalid, if_neg (by omega), if_neg (by omega),
    if_neg (by omega), ofNat_eq (b := lead) (by omega), ofNat_eq (b := second) (by omega),
    ofNat_eq (b := third) (by omega), ofNat_eq (b := fourth) (by omega)]

theorem sequenceLength_le (lead : UInt8) : sequenceLength lead ≤ 4 := by
  rw [sequenceLength_eq]
  split_ifs <;> omega

theorem two_le_sequenceLength (hlead : isLead lead = true) : 2 ≤ sequenceLength lead := by
  rw [isLead_iff] at hlead
  rw [sequenceLength_eq]
  split_ifs <;> omega

/-- A second byte that is not that of a surrogate is in its range. -/
theorem isSecond_of_continues (hsecond : continues lead [] second = true)
    (hsurrogate : isSurrogate lead [second] = false) : isSecond lead second = true := by
  rw [continues_second_iff, hsurrogate] at hsecond
  simpa using hsecond

/-- A complete sequence is what its character is encoded as. -/
theorem utf8EncodeChar_charOf {tail : List UInt8} (hlead : isLead lead = true)
    (htail : Continued lead tail) (hlen : tail.length + 1 = sequenceLength lead) :
    String.utf8EncodeChar (charOf lead tail) = lead :: tail := by
  have hle := sequenceLength_le lead
  have hge := two_le_sequenceLength hlead
  match tail with
  | [] => simp at hlen; omega
  | [second] =>
    have hsecond := (continued_concat_iff []).mp htail
    have hsurrogate : isSurrogate lead [second] = false := by
      have hne : lead ≠ 0xED := by
        rintro rfl
        cases hlen
      simp [isSurrogate, hne]
    exact utf8EncodeChar_charOf_two hlead (isSecond_of_continues hsecond.2 hsurrogate) hlen.symm
  | [second, third] =>
    obtain ⟨htail, hthird⟩ := (continued_concat_iff [second]).mp htail
    obtain ⟨-, hsecond⟩ := (continued_concat_iff []).mp htail
    obtain ⟨hsurrogate, hthird⟩ := continues_tail_iff.mp hthird
    exact utf8EncodeChar_charOf_three (isSecond_of_continues hsecond hsurrogate) hthird hlen.symm
  | [second, third, fourth] =>
    obtain ⟨htail, hfourth⟩ := (continued_concat_iff [second, third]).mp htail
    obtain ⟨htail, hthird⟩ := (continued_concat_iff [second]).mp htail
    obtain ⟨-, hsecond⟩ := (continued_concat_iff []).mp htail
    obtain ⟨hsurrogate, hthird⟩ := continues_tail_iff.mp hthird
    exact utf8EncodeChar_charOf_four hlead (isSecond_of_continues hsecond hsurrogate) hthird
      (continues_tail_iff.mp hfourth).2 hlen.symm
  | _ :: _ :: _ :: _ :: _ => simp at hlen; omega

end Sequences

/-! ## Steps -/

namespace Decoder

variable {d d' : Decoder} {bs : List UInt8}

theorem accounts_start : Accounts {} [] :=
  ⟨rfl, by simp⟩

/-- Each byte goes over to what is pending, or completes a character. -/
theorem Accounts.feed {b : UInt8} (h : d.Accounts bs) (hfeed : d.feed b = .ok d') :
    d'.Accounts (bs ++ [b]) := by
  obtain ⟨offset, pending, read⟩ := d
  obtain ⟨rfl, hpending⟩ := h
  cases pending with
  | nil =>
    simp only [Decoder.feed] at hfeed
    split_ifs at hfeed with hascii hlead <;> cases hfeed
    · refine ⟨?_, by simp⟩
      simp [encode_append, utf8EncodeChar_ascii hascii]
    · refine ⟨by simp, ?_⟩
      rintro lead rest ⟨⟩
      exact ⟨hlead, .nil, two_le_sequenceLength hlead⟩
  | cons lead rest =>
    obtain ⟨hlead, hrest, hlen⟩ := hpending lead rest rfl
    simp only [Decoder.feed] at hfeed
    split_ifs at hfeed with hcontinues hlast <;> cases hfeed
    · have hchar := utf8EncodeChar_charOf hlead (hrest.concat hcontinues) (by simpa using hlast)
      refine ⟨?_, by simp⟩
      simp [encode_append, hchar]
    · refine ⟨by simp, ?_⟩
      rintro lead' rest' ⟨⟩
      refine ⟨hlead, hrest.concat hcontinues, ?_⟩
      rw [List.length_append, List.length_singleton]
      omega

theorem Accounts.feedAll {cs : List UInt8} (h : d.Accounts bs) (hfeed : d.feedAll cs = .ok d') :
    d'.Accounts (bs ++ cs) := by
  induction cs generalizing d bs with
  | nil => cases hfeed; rwa [List.append_nil]
  | cons c cs ih =>
    obtain ⟨next, hnext, hrest⟩ := feedAll_cons_eq_ok_iff.mp hfeed
    rw [← List.singleton_append, ← List.append_assoc]
    exact ih (h.feed hnext) hrest

/-- A byte is put behind what is pending, or it completes a character. -/
theorem feed_cases {b : UInt8} (h : d.feed b = .ok d') :
    d'.offset = d.offset + 1 ∧
      (d'.pending = d.pending ++ [b] ∧ d'.read = d.read ∨
        ∃ c, d'.pending = [] ∧ d'.read = c :: d.read) := by
  obtain ⟨offset, pending, read⟩ := d
  cases pending with
  | nil =>
    simp only [Decoder.feed] at h
    split_ifs at h with hascii hlead <;> cases h
    · exact ⟨rfl, .inr ⟨_, rfl, rfl⟩⟩
    · exact ⟨rfl, .inl ⟨rfl, rfl⟩⟩
  | cons lead rest =>
    simp only [Decoder.feed] at h
    split_ifs at h with hcontinues hlast <;> cases h
    · exact ⟨rfl, .inr ⟨_, rfl, rfl⟩⟩
    · exact ⟨rfl, .inl ⟨rfl, rfl⟩⟩

/-- Every byte is counted, and characters that have been read stay read. -/
theorem feedAll_progress {cs : List UInt8} (h : d.feedAll cs = .ok d') :
    d'.offset = d.offset + cs.length ∧ d.read <:+ d'.read := by
  induction cs generalizing d with
  | nil => cases h; exact ⟨rfl, List.suffix_refl _⟩
  | cons c cs ih =>
    obtain ⟨next, hnext, hrest⟩ := feedAll_cons_eq_ok_iff.mp h
    obtain ⟨hoffset, hread⟩ := ih hrest
    obtain ⟨hstep, hcases⟩ := feed_cases hnext
    have hsuffix : d.read <:+ next.read := by
      rcases hcases with ⟨-, heq⟩ | ⟨a, -, heq⟩
      · rw [heq]
      · exact heq ▸ List.suffix_cons a d.read
    refine ⟨?_, hsuffix.trans hread⟩
    rw [hoffset, hstep, List.length_cons]
    omega

/-- What starts a surrogate is not continued. -/
theorem isSurrogate_eq_false_of_feed {lead b : UInt8} {rest : List UInt8}
    (hpending : d.pending = lead :: rest) (h : d.feed b = .ok d') :
    isSurrogate lead rest = false := by
  cases rest with
  | nil => rfl
  | cons second rest =>
    rw [Decoder.feed, hpending] at h
    cases hcontinues : continues lead (second :: rest) b with
    | false => simp [hcontinues] at h
    | true => exact (continues_tail_iff.mp hcontinues).1

end Decoder

/-! ## Reading behind whole characters -/

/-- Behind whole characters, reading starts anew. -/
theorem feedAll_encode_append (cs : List Char) (bs : List UInt8) :
    Decoder.feedAll {} (encode cs ++ bs) =
      ((Decoder.feedAll {} bs).map (shift (encode cs).length cs.reverse)).mapError
        (Fault.shift (encode cs).length) := by
  have hencode : Decoder.feedAll {} (encode cs) = .ok (shift (encode cs).length cs.reverse {}) := by
    rw [feedAll_encode, shift, Nat.zero_add, List.append_nil]
    rfl
  rw [feedAll_append, hencode]
  exact feedAll_shift (encode cs).length cs.reverse le_rfl bs

theorem decode_encode_append (cs : List Char) (bs : List UInt8) :
    decode (encode cs ++ bs) =
      ((decode bs).map (cs ++ ·)).mapError (Fault.shift (encode cs).length) := by
  rw [decode_eq, feedAll_encode_append, decode_eq]
  cases hfeed : Decoder.feedAll {} bs with
  | error f => rfl
  | ok d =>
    have hlength := (Resumes.start.feedAll hfeed).length_le
    have hfinish := finish_shift (encode cs).length cs.reverse hlength
    rw [List.reverse_reverse] at hfinish
    exact hfinish

theorem decodePiece_encode_append (cs : List Char) (bs : List UInt8) :
    decodePiece (encode cs ++ bs) =
      ((decodePiece bs).map fun (text, carry) => (cs ++ text, carry)).mapError
        (Fault.shift (encode cs).length) := by
  rw [decodePiece, feedAll_encode_append, decodePiece]
  cases Decoder.feedAll {} bs with
  | error f => rfl
  | ok d => simp [Except.map, Except.mapError, shift]

theorem decodePiece_eq_ok_iff {bs carry : List UInt8} {text : List Char} :
    decodePiece bs = .ok (text, carry) ↔
      ∃ d, Decoder.feedAll {} bs = .ok d ∧ d.read.reverse = text ∧ d.pending = carry := by
  rw [decodePiece]
  cases Decoder.feedAll {} bs <;> simp

theorem decodePiece_eq_error_iff {bs : List UInt8} {f : Fault} :
    decodePiece bs = .error f ↔ Decoder.feedAll {} bs = .error f := by
  rw [decodePiece]
  cases Decoder.feedAll {} bs <;> simp

/-- A piece consists of the characters that are read from it and of what it leaves over. -/
theorem eq_encode_append_of_decodePiece {bs carry : List UInt8} {text : List Char}
    (h : decodePiece bs = .ok (text, carry)) : bs = encode text ++ carry := by
  obtain ⟨d, hfeed, rfl, rfl⟩ := decodePiece_eq_ok_iff.mp h
  exact (accounts_start.feedAll hfeed).bytes_eq

/-- A fault in the first bytes is the fault of the whole. -/
theorem decode_eq_error_of_piece {piece bs : List UInt8} {f : Fault} (hpiece : piece <+: bs)
    (h : decodePiece piece = .error f) : decode bs = .error f := by
  obtain ⟨more, rfl⟩ := hpiece
  rw [decode_eq, feedAll_append, decodePiece_eq_error_iff.mp h]
  rfl

/-! ## Texts cut within a character -/

section Cut

variable {c : Char} {m : ℕ} (hm : m < c.utf8Size)

include hm

/-- The first bytes of a character wait for the others, and start no surrogate. -/
theorem feedAll_take_utf8EncodeChar :
    Decoder.feedAll {} ((String.utf8EncodeChar c).take m) =
        .ok (waiting ((String.utf8EncodeChar c).take m)) ∧
      ∀ lead rest, (String.utf8EncodeChar c).take m = lead :: rest →
        isSurrogate lead rest = false := by
  have hsize := String.length_utf8EncodeChar c
  have hall := feedAll_utf8EncodeChar 0 [] c
  rw [← List.take_append_drop m (String.utf8EncodeChar c)] at hall
  obtain ⟨d, hpart, hrest⟩ := feedAll_append_eq_ok_iff.mp hall
  obtain ⟨hbytes, -⟩ := accounts_start.feedAll hpart
  obtain ⟨hoffset, -⟩ := feedAll_progress hpart
  obtain ⟨-, hsuffix⟩ := feedAll_progress hrest
  -- the character itself cannot have been read, for that takes all of its bytes
  have hread : d.read = [] := by
    rcases List.suffix_cons_iff.mp hsuffix with heq | hnil
    · have hlength := congrArg List.length hbytes
      simp [heq, hsize] at hlength
      omega
    · exact List.suffix_nil.mp hnil
  rw [hread, List.reverse_nil, encode_nil, List.nil_append, List.nil_append] at hbytes
  have hd : d = waiting ((String.utf8EncodeChar c).take m) := by
    obtain ⟨offset, pending, read⟩ := d
    subst hread hbytes
    change offset = 0 + _ at hoffset
    rw [hoffset, Nat.zero_add, waiting]
  refine ⟨hpart.trans (congrArg Except.ok hd), ?_⟩
  intro lead rest heq
  have hleft : (String.utf8EncodeChar c).drop m ≠ [] := by
    rw [ne_eq, List.drop_eq_nil_iff]
    omega
  obtain ⟨b, bs, hdrop⟩ := List.exists_cons_of_ne_nil hleft
  rw [hdrop] at hrest
  obtain ⟨next, hnext, -⟩ := feedAll_cons_eq_ok_iff.mp hrest
  exact isSurrogate_eq_false_of_feed (hbytes.symm.trans heq) hnext

/-- Bytes that end within a character are at fault from its first byte on. -/
theorem decode_cut (cs : List Char) {lead : UInt8} {tail : List UInt8}
    (hc : String.utf8EncodeChar c = lead :: tail) (hpos : 0 < m) :
    decode (encode cs ++ (String.utf8EncodeChar c).take m) =
      .error ⟨(encode cs).length, (encode cs).length + m, lead, .cut⟩ := by
  obtain ⟨m, rfl⟩ : ∃ k, m = k + 1 := ⟨m - 1, by omega⟩
  have hpart : (String.utf8EncodeChar c).take (m + 1) = lead :: tail.take m := by
    rw [hc, List.take_succ_cons]
  have hlength : (tail.take m).length = m := by
    have hsize := String.length_utf8EncodeChar c
    rw [hc, List.length_cons] at hsize
    rw [List.length_take]
    omega
  obtain ⟨hfeed, hsurrogate⟩ := feedAll_take_utf8EncodeChar hm
  rw [decode_encode_append, decode_eq, hfeed, hpart, waiting]
  show Except.mapError _ (Except.map _ (Except.error (fault _ lead (tail.take m) .cut))) = _
  rw [fault, hsurrogate _ _ hpart, List.length_cons, hlength]
  simp [Except.map, Except.mapError, Fault.shift]

end Cut

/-! ## Decoding byte strings -/

/-- **The bytes that are decoded as a text are those of the text.** -/
theorem decode_eq_ok_iff {bs : List UInt8} {cs : List Char} :
    decode bs = .ok cs ↔ bs = encode cs := by
  refine ⟨?_, fun h => h ▸ decode_encode cs⟩
  intro h
  rw [decode_eq] at h
  cases hfeed : Decoder.feedAll {} bs with
  | error f => rw [hfeed] at h; cases h
  | ok d =>
    obtain ⟨hbytes, -⟩ := accounts_start.feedAll hfeed
    rw [hfeed] at h
    change d.finish = .ok cs at h
    unfold finish at h
    split at h
    · next hpending =>
      cases h
      rwa [List.nil_append, hpending, List.append_nil] at hbytes
    · cases h

/-- What is decoded in chunks is what is decoded as a whole. -/
theorem decodeChunked_eq_ok_iff {size : ℕ} {bs : List UInt8} {cs : List Char} :
    decodeChunked size bs = .ok cs ↔ bs = encode cs := by
  refine ⟨?_, fun h => h ▸ decodeChunked_encode size cs⟩
  intro h
  obtain ⟨k, hk⟩ := decode_eq_decodeChunked size bs
  rw [h] at hk
  exact decode_eq_ok_iff.mp hk

end Lojban.Text.Utf8
