/-!
# UTF-8

Encoding, and decoding one byte at a time. `Decoder.feed` is the whole of the decoding rule: it
either completes a character, or keeps an incomplete sequence waiting, or reports the `Fault` at the
first byte that no well-formed text can have in this place. Only the first two bytes of a surrogate
wait although no character starts with them: their fault is found at the third byte or at the end.

Three ways of reading bytes use it:

* `decode` reads a complete byte string;
* `decodePiece` reads a piece of a longer one and hands back the incomplete sequence at its end;
* `decodeChunked` reads chunk after chunk, each behind the sequence that the chunk before it left
  over. Its faults count bytes from the start of the piece they were found in.
-/

namespace Lojban.Text.Utf8

/-! ## Encoding -/

/-- The bytes of a text. -/
def encode (cs : List Char) : List UInt8 :=
  cs.flatMap String.utf8EncodeChar

@[simp] theorem encode_nil : encode [] = [] := rfl

@[simp] theorem encode_cons (c : Char) (cs : List Char) :
    encode (c :: cs) = String.utf8EncodeChar c ++ encode cs := rfl

@[simp] theorem encode_append (cs ds : List Char) : encode (cs ++ ds) = encode cs ++ encode ds := by
  simp [encode]

/-- The number of bytes of a text. -/
def byteLength (cs : List Char) : Nat :=
  (encode cs).length

/-- The characters that take one byte. -/
def isAscii (c : Char) : Bool :=
  c.toNat < 0x80

/-! ## Faults -/

/-- What is wrong with a byte sequence. -/
inductive Reason where
  /-- The byte starts no character. -/
  | badStart
  /-- The sequence is not continued the way its first byte asks for. -/
  | badContinuation
  /-- The text ends inside a character. -/
  | cut
deriving DecidableEq, Repr

/-- The wording of a reason. -/
def Reason.message : Reason → String
  | .badStart => "invalid start byte"
  | .badContinuation => "invalid continuation byte"
  | .cut => "unexpected end of data"

/-- The bytes at offsets `first`, …, `stop - 1` start no character; `lead` is the first of them. -/
structure Fault where
  first : Nat
  stop : Nat
  lead : UInt8
  reason : Reason
deriving DecidableEq, Repr

/-- One byte in hexadecimal, always two digits. -/
def hexByte (b : UInt8) : String :=
  String.ofList [Nat.digitChar (b.toNat / 16), Nat.digitChar (b.toNat % 16)]

/-- The wording of a fault. A single byte is named, of several bytes only the offsets are. -/
def Fault.message (f : Fault) : String :=
  let place :=
    if f.stop = f.first + 1 then
      "byte 0x" ++ hexByte f.lead ++ " in position " ++ toString f.first
    else
      "bytes in position " ++ toString f.first ++ "-" ++ toString (f.stop - 1)
  "'utf-8' codec can't decode " ++ place ++ ": " ++ f.reason.message

/-! ## Decoding one byte at a time -/

/-- The bytes that start a sequence of two to four bytes. -/
def isLead (b : UInt8) : Bool :=
  0xC2 ≤ b && b ≤ 0xF4

/-- The length of the sequence that `lead` starts. -/
def sequenceLength (lead : UInt8) : Nat :=
  if lead < 0x80 then 1 else if lead < 0xE0 then 2 else if lead < 0xF0 then 3 else 4

/-- Whether `b` may stand second after `lead`. Four leads narrow the range, which rules out long
forms, surrogates and numbers past the last code point. -/
def isSecond (lead b : UInt8) : Bool :=
  (if lead = 0xE0 then 0xA0 else if lead = 0xF0 then 0x90 else 0x80) ≤ b &&
    b ≤ (if lead = 0xED then 0x9F else if lead = 0xF4 then 0x8F else 0xBF)

/-- Whether a surrogate starts with `lead` and goes on with `rest`. -/
def isSurrogate (lead : UInt8) (rest : List UInt8) : Bool :=
  match rest with
  | [] => false
  | b :: _ => lead = 0xED && 0xA0 ≤ b && b ≤ 0xBF

/-- Whether `b` continues the incomplete sequence that starts with `lead` and goes on with `rest`.
The second byte of a surrogate does, and its third does not. -/
def continues (lead : UInt8) (rest : List UInt8) (b : UInt8) : Bool :=
  match rest with
  | [] => isSecond lead b || isSurrogate lead [b]
  | _ :: _ => !isSurrogate lead rest && 0x80 ≤ b && b ≤ 0xBF

/-- The character that a complete sequence stands for. -/
def charOf (lead : UInt8) (rest : List UInt8) : Char :=
  let top := match rest.length with
    | 0 => lead.toNat
    | 1 => lead.toNat - 0xC0
    | 2 => lead.toNat - 0xE0
    | _ => lead.toNat - 0xF0
  Char.ofNat (rest.foldl (fun n b => n * 64 + (b.toNat - 0x80)) top)

/-- A reader in the middle of a byte string. -/
structure Decoder where
  /-- How many bytes have been read. -/
  offset : Nat := 0
  /-- The bytes of a character that is not complete yet. -/
  pending : List UInt8 := []
  /-- The characters read so far, the last one first. -/
  read : List Char := []
deriving DecidableEq, Repr

/-- The fault of the incomplete sequence `lead :: rest` that ends where `d` stands. That of a
surrogate is in its first byte, since its second already continues no character. -/
def Decoder.fault (d : Decoder) (lead : UInt8) (rest : List UInt8) (reason : Reason) : Fault :=
  let first := d.offset - (rest.length + 1)
  if isSurrogate lead rest then ⟨first, first + 1, lead, .badContinuation⟩
  else ⟨first, d.offset, lead, reason⟩

/-- Reads one more byte. -/
def Decoder.feed (d : Decoder) (b : UInt8) : Except Fault Decoder :=
  match d.pending with
  | [] =>
    if b < 0x80 then
      .ok ⟨d.offset + 1, [], Char.ofNat b.toNat :: d.read⟩
    else if isLead b then
      .ok ⟨d.offset + 1, [b], d.read⟩
    else
      .error ⟨d.offset, d.offset + 1, b, .badStart⟩
  | lead :: rest =>
    if continues lead rest b then
      if rest.length + 2 = sequenceLength lead then
        .ok ⟨d.offset + 1, [], charOf lead (rest ++ [b]) :: d.read⟩
      else
        .ok ⟨d.offset + 1, lead :: (rest ++ [b]), d.read⟩
    else
      .error (d.fault lead rest .badContinuation)

/-- Reads `bs` from where `d` stands. -/
def Decoder.feedAll (d : Decoder) (bs : List UInt8) : Except Fault Decoder :=
  bs.foldlM Decoder.feed d

@[simp] theorem Decoder.feedAll_nil (d : Decoder) : d.feedAll [] = .ok d := rfl

/-- Reading goes on from where it stopped. -/
theorem Decoder.feedAll_append (d : Decoder) (bs cs : List UInt8) :
    d.feedAll (bs ++ cs) = d.feedAll bs >>= fun d => d.feedAll cs := by
  simp only [Decoder.feedAll, List.foldlM_append]

/-- Ends the text: nothing may be pending any more. -/
def Decoder.finish (d : Decoder) : Except Fault (List Char) :=
  match d.pending with
  | [] => .ok d.read.reverse
  | lead :: rest => .error (d.fault lead rest .cut)

/-! ## Decoding byte strings -/

/-- Reads a complete byte string. -/
def decode (bs : List UInt8) : Except Fault (List Char) :=
  match Decoder.feedAll {} bs with
  | .ok d => d.finish
  | .error f => .error f

/-- Reads a piece of a longer byte string: its characters, and the incomplete sequence it ends
with. -/
def decodePiece (bs : List UInt8) : Except Fault (List Char × List UInt8) :=
  match Decoder.feedAll {} bs with
  | .ok d => .ok (d.read.reverse, d.pending)
  | .error f => .error f

/-- Cuts a list into pieces of `size` elements, the last one possibly shorter. -/
def chunks {α : Type} (size : Nat) (xs : List α) : List (List α) :=
  if xs = [] then []
  else if size = 0 then [xs]
  else xs.take size :: chunks size (xs.drop size)
termination_by xs.length
decreasing_by
  rw [List.length_drop]
  have : xs.length ≠ 0 := fun h => by simp_all
  omega

/-- Reads one chunk after another. `carry` is what the chunks before left over and `read` the text
they gave; what the last chunk leaves over is decoded alone. -/
def decodeFrom (carry : List UInt8) (read : List Char) :
    List (List UInt8) → Except Fault (List Char)
  | [] => (decode carry).map (read ++ ·)
  | chunk :: more =>
    match decodePiece (carry ++ chunk) with
    | .ok (text, left) => decodeFrom left (read ++ text) more
    | .error f => .error f

/-- Reads a byte string in chunks of `size` bytes. -/
def decodeChunked (size : Nat) (bs : List UInt8) : Except Fault (List Char) :=
  decodeFrom [] [] (chunks size bs)

end Lojban.Text.Utf8
