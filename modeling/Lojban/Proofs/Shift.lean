import Lojban.Proofs.Spans

/-!
# Texts in longer texts

What is found in a text is found again where the text is part of a longer one, only further on. The
`shift` operations move words, tokens, passages and faults on by characters, and trees by bytes.

* `scan_add`, `ofTokensFrom_shift`: scanning and reading do not depend on the index of the first
  character.
* `LaidOut.map_toTree_shift`: where a passage has moved on by the characters in front of its text,
  the trees of its sentences have moved on by the bytes in front.
-/

namespace Lojban

open Text Utf8

/-! ## Moving on -/

/-- The word `k` characters further on. -/
def Word.shift (k : ℕ) (w : Word) : Word :=
  ⟨w.start + k, w.letters⟩

/-- The token `k` characters further on. -/
def Token.shift (k : ℕ) : Token → Token
  | .word w => .word (w.shift k)
  | .mark i => .mark (i + k)
  | .stray i c => .stray (i + k) c

/-- The sentence `k` characters further on. -/
def Sentence.shift (k : ℕ) (s : Sentence) : Sentence :=
  ⟨s.first.shift k, s.more.map (Word.shift k)⟩

/-- The passage `k` characters further on. -/
def Passage.shift (k : ℕ) (p : Passage) : Passage :=
  ⟨p.first.shift k, p.more.map (Sentence.shift k)⟩

/-- The place `k` characters further on, if it is not the start. -/
def Before.shift (k : ℕ) : Before → Before
  | start => start
  | mark i => mark (i + k)
  | word w => word (w.shift k)

/-- The fault `k` characters further on. -/
def Fault.shift (k : ℕ) : Fault → Fault
  | missingWord before => missingWord (before.shift k)
  | misplacedMark i before => misplacedMark (i + k) (before.shift k)
  | strayChar i c before => strayChar (i + k) c (before.shift k)

namespace Tree

mutual

/-- The tree with all its nodes `k` bytes further on. -/
def shift (k : ℤ) : Tree → Tree
  | node tag text start stop children =>
    node tag text (start + k) (stop + k) (shiftAll k children)

/-- Some trees with all their nodes `k` bytes further on. -/
def shiftAll (k : ℤ) : List Tree → List Tree
  | [] => []
  | t :: ts => shift k t :: shiftAll k ts

end

theorem shiftAll_eq_map (k : ℤ) (ts : List Tree) : shiftAll k ts = ts.map (shift k) := by
  induction ts with
  | nil => rw [shiftAll]; rfl
  | cons t ts ih => rw [shiftAll, ih, List.map_cons]

theorem shift_node (k : ℤ) (tag : Tag) (text : String) (start stop : ℤ) (children : List Tree) :
    (node tag text start stop children).shift k =
      node tag text (start + k) (stop + k) (children.map (shift k)) := by
  rw [shift, shiftAll_eq_map]

mutual

@[simp] theorem shift_zero (t : Tree) : t.shift 0 = t := by
  cases t with
  | node tag text start stop children =>
    rw [shift, shiftAll_zero, Int.add_zero, Int.add_zero]

@[simp] theorem shiftAll_zero (ts : List Tree) : shiftAll 0 ts = ts := by
  cases ts with
  | nil => rw [shiftAll]
  | cons t ts => rw [shiftAll, shift_zero t, shiftAll_zero ts]

end

end Tree

@[simp] theorem Word.shift_zero (w : Word) : w.shift 0 = w := rfl

@[simp] theorem Word.stop_shift (k : ℕ) (w : Word) : (w.shift k).stop = w.stop + k := by
  simp only [Word.stop, Word.shift]
  omega

@[simp] theorem Sentence.shift_zero (s : Sentence) : s.shift 0 = s := by
  have hword : Word.shift 0 = id := rfl
  rw [Sentence.shift, hword, List.map_id]
  rfl

@[simp] theorem Sentence.start_shift (k : ℕ) (s : Sentence) : (s.shift k).start = s.start + k := rfl

@[simp] theorem Sentence.stop_shift (k : ℕ) (s : Sentence) : (s.shift k).stop = s.stop + k := by
  show ((s.more.map (Word.shift k)).getLastD (s.first.shift k)).stop = _
  rw [List.getLastD_map, Word.stop_shift]
  rfl

@[simp] theorem Sentence.words_shift (k : ℕ) (s : Sentence) :
    (s.shift k).words = s.words.map (Word.shift k) := rfl

@[simp] theorem Passage.start_shift (k : ℕ) (p : Passage) : (p.shift k).start = p.start + k := rfl

@[simp] theorem Passage.stop_shift (k : ℕ) (p : Passage) : (p.shift k).stop = p.stop + k := by
  show ((p.more.map (Sentence.shift k)).getLastD (p.first.shift k)).stop = _
  rw [List.getLastD_map, Sentence.stop_shift]
  rfl

@[simp] theorem Fault.token?_shift (k : ℕ) (f : Fault) : (f.shift k).token? = f.token? := by
  cases f <;> rfl

/-- Only a fault of a text without tokens stays where it is. -/
theorem Fault.start_shift (k : ℕ) {f : Fault} (h : f ≠ .missingWord .start) :
    (f.shift k).start = f.start + k := by
  cases f with
  | missingWord before =>
    cases before with
    | start => exact absurd rfl h
    | mark i => rfl
    | word w => rfl
  | misplacedMark i before => rfl
  | strayChar i c before => rfl

/-! ## Scanning -/

/-- A text that starts further on has the same tokens, further on. -/
theorem Scans.shift {i : ℕ} {cs : List Char} {ts : List Token} (h : Scans i cs ts) (k : ℕ) :
    Scans (i + k) cs (ts.map (Token.shift k)) := by
  induction h with
  | done hg => exact .done hg
  | @word i g w cs ts hg hw hcs _ ih =>
    have hstart : i + k + g.length = i + g.length + k := by omega
    have hrest : i + k + g.length + w.length = i + g.length + w.length + k := by omega
    have := Scans.word (i := i + k) hg hw hcs (hrest ▸ ih)
    rwa [hstart] at this
  | @mark i g cs ts hg _ ih =>
    have hstart : i + k + g.length = i + g.length + k := by omega
    have hrest : i + k + g.length + 2 = i + g.length + 2 + k := by omega
    have := Scans.mark (i := i + k) hg (hrest ▸ ih)
    rwa [hstart] at this
  | @stray i g cs c hg hc hl hi =>
    have hstart : i + k + g.length = i + g.length + k := by omega
    have := Scans.stray (i := i + k) hg hc hl hi
    rwa [hstart] at this

theorem Token.scan_add (i k : ℕ) (cs : List Char) :
    scan (i + k) cs = (scan i cs).map (Token.shift k) :=
  ((scans_scan i cs).shift k).scan_eq

/-! ## Reading -/

namespace Passage

/-- Both places of the reader, by induction on the tokens. -/
theorem ofTokens_shift_aux (k : ℕ) (ts : List Token) :
    (∀ before : Before, ofTokensFrom (before.shift k) (ts.map (Token.shift k)) =
      ((ofTokensFrom before ts).map (shift k)).mapError (Fault.shift k)) ∧
    ∀ w : Word, ofTokensBehind (w.shift k) (ts.map (Token.shift k)) =
      ((ofTokensBehind w ts).map (shift k)).mapError (Fault.shift k) := by
  induction ts with
  | nil => exact ⟨fun before => rfl, fun w => rfl⟩
  | cons t ts ih =>
    obtain ⟨hfrom, hbehind⟩ := ih
    constructor
    · intro before
      cases t with
      | word w => exact hbehind w
      | mark i => rfl
      | stray i c => rfl
    · intro w
      cases t with
      | word v =>
        show (ofTokensBehind (v.shift k) (ts.map (Token.shift k))).map (consWord (w.shift k)) = _
        rw [hbehind v, ofTokensBehind]
        cases ofTokensBehind v ts <;> rfl
      | mark i =>
        show (ofTokensFrom ((Before.mark i).shift k) (ts.map (Token.shift k))).map
          (consSentence (w.shift k)) = _
        rw [hfrom, ofTokensBehind]
        cases ofTokensFrom (.mark i) ts <;> rfl
      | stray i c => rfl

/-- Tokens that lie further on are read as the passage or the fault that lies further on. -/
theorem ofTokensFrom_shift (k : ℕ) (before : Before) (ts : List Token) :
    ofTokensFrom (before.shift k) (ts.map (Token.shift k)) =
      ((ofTokensFrom before ts).map (shift k)).mapError (Fault.shift k) :=
  (ofTokens_shift_aux k ts).1 before

end Passage

/-! ## Offsets and nodes -/

section Nodes

variable (pre text post : List Char)

/-- Offsets in a longer text are further on by the bytes in front. -/
theorem offset_append {i : ℕ} (h : i ≤ text.length) :
    (ByteIndex.of (pre ++ (text ++ post))).offset ((i + pre.length : ℕ) : ℤ) =
      (ByteIndex.of text).offset i + byteLength pre := by
  rw [ByteIndex.offset_natCast h, ByteIndex.offset_natCast, Nat.add_comm,
    List.take_length_add_append, List.take_append_of_le_length h, byteLength_append, Nat.cast_add,
    Int.add_comm]
  rw [List.length_append, List.length_append]
  omega

theorem Word.toTree_shift {w : Word} (h : w.stop ≤ text.length) :
    (w.shift pre.length).toTree (.of (pre ++ (text ++ post))) =
      (w.toTree (.of text)).shift (byteLength pre) := by
  have hstart : w.start ≤ text.length := by
    unfold Word.stop at h
    omega
  rw [Word.toTree, Word.toTree, Tree.shift_node, Word.stop_shift, offset_append pre text post h]
  show Tree.node _ _ ((ByteIndex.of _).offset ((w.start + pre.length : ℕ) : ℤ)) _ _ = _
  rw [offset_append pre text post hstart]
  rfl

theorem compositeNode_shift {tag : Tag} {start stop : ℕ} {children : List Tree}
    (h : start ≤ stop) (hstop : stop ≤ text.length) :
    compositeNode (.of (pre ++ (text ++ post))) tag (start + pre.length) (stop + pre.length)
        (children.map (Tree.shift (byteLength pre))) =
      (compositeNode (.of text) tag start stop children).shift (byteLength pre) := by
  have hslice : slice (pre ++ (text ++ post)) (start + pre.length) (stop + pre.length) =
      slice text start stop := by
    rw [Nat.add_comm start, Nat.add_comm stop, slice_length_add, slice_append_of_le _ _ h hstop]
  rw [compositeNode, compositeNode, Tree.shift_node, offset_append pre text post (h.trans hstop),
    offset_append pre text post hstop]
  simp only [ByteIndex.of_text, hslice]

end Nodes

namespace Passage.LaidOut

variable {text : String} {p : Passage} (h : p.LaidOut text.toList) (pre post : List Char)

include h

/-- The tree of a sentence of a text, where the text is part of a longer one. -/
theorem toTree_shift {s : Sentence} (hs : s ∈ p.sentences) :
    (s.shift pre.length).toTree (.of (pre ++ (text.toList ++ post))) =
      (s.toTree (.of text.toList)).shift (byteLength pre) := by
  have hsentence := h.standsFor_sentence hs
  have hwords : (s.words.map (Word.shift pre.length)).map
      (Word.toTree (.of (pre ++ (text.toList ++ post)))) =
      (s.words.map (Word.toTree (.of text.toList))).map (Tree.shift (byteLength pre)) := by
    rw [List.map_map, List.map_map]
    apply List.map_congr_left
    intro w hw
    exact Word.toTree_shift pre text.toList post (h.word hs hw).stop_le
  rw [Sentence.toTree, Sentence.words_shift, hwords, Sentence.start_shift, Sentence.stop_shift,
    compositeNode_shift pre text.toList post hsentence.lt.le hsentence.le]
  rfl

/-- The trees of all sentences of a text, where the text is part of a longer one. -/
theorem map_toTree_shift :
    (p.shift pre.length).sentences.map (Sentence.toTree (.of (pre ++ (text.toList ++ post)))) =
      (p.sentences.map (Sentence.toTree (.of text.toList))).map (Tree.shift (byteLength pre)) := by
  show (p.sentences.map (Sentence.shift pre.length)).map _ = _
  rw [List.map_map, List.map_map]
  apply List.map_congr_left
  intro s hs
  exact h.toTree_shift pre post hs

/-- The tree of a text, where the text is part of a longer one. -/
theorem toTree_shift_passage :
    (p.shift pre.length).toTree (.of (pre ++ (text.toList ++ post))) =
      (p.toTree (.of text.toList)).shift (byteLength pre) := by
  rw [Passage.toTree, h.map_toTree_shift pre post, Passage.start_shift, Passage.stop_shift,
    compositeNode_shift pre text.toList post h.standsFor.lt.le h.standsFor.le]
  rfl

end Passage.LaidOut

end Lojban
