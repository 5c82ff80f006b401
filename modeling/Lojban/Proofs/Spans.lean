import Lojban.Proofs.Places

/-!
# The tree of a text describes the text

`Tree.Describes text t` collects what a tree `t` with byte offsets has to say about a text: what its
nodes are and in which order they lie, that the bytes of each node are those of its characters, and
that no byte of the text is left out, for the bytes that belong to no word make up the gaps and
marks between them.

Main result: `ofText_describes`, the tree of every text describes it.
-/

namespace Lojban

open Text Utf8

/-! ## Specification -/

/-- The bytes of the characters that gaps are made of. -/
def gapBytes : List UInt8 := [0x20, 0x09, 0x0C, 0x0D, 0x0A]

/-- The bytes of a gap, which may be empty. -/
def IsGapBytes (bs : List UInt8) : Prop := ∀ b ∈ bs, b ∈ gapBytes

/-- The bytes of one mark `.i` with a gap on either side. -/
def IsMarkBytes (bs : List UInt8) : Prop :=
  ∃ g g', IsGapBytes g ∧ IsGapBytes g' ∧ bs = g ++ 0x2E :: 0x69 :: g'

namespace Tree

/-- `s` ends before `t` starts, and so it starts and ends before `t` does. -/
structure Precedes (s t : Tree) : Prop where
  disjoint : s.stop ≤ t.start
  start_lt : s.start < t.start
  stop_lt : s.stop < t.stop

/-- The tree `t` describes `text`. -/
structure Describes (text : String) (t : Tree) : Prop where
  /-- The root stands for a text of one sentence or more. -/
  root : t.tag = .text ∧ t.children ≠ []
  /-- Sentences have one word or more. -/
  sentences : ∀ s ∈ t.children, s.tag = .sentence ∧ s.children ≠ []
  /-- Words have letters, and nothing below them. -/
  words : ∀ s ∈ t.children, ∀ w ∈ s.children,
    w.tag = .word ∧ w.children = [] ∧ IsWord w.text.toList
  /-- Every node lies within the text. -/
  bounds : ∀ n ∈ t.walk, 0 ≤ n.start ∧ n.start < n.stop ∧ n.stop ≤ (encode text.toList).length
  /-- The bytes of every node are those of its characters. -/
  bytes : ∀ n ∈ t.walk, bytesBetween text n.start n.stop = encode n.text.toList
  /-- A node with children starts with the first of them and ends with the last. -/
  ends : ∀ n ∈ t.walk, ∀ h : n.children ≠ [],
    n.start = (n.children.head h).start ∧ n.stop = (n.children.getLast h).stop
  /-- The children of a node lie one behind the other. -/
  ordered : ∀ n ∈ t.walk, n.children.Pairwise Precedes
  /-- Only a gap stands before the first sentence. -/
  before : IsGapBytes (bytesBetween text 0 t.start)
  /-- Only a gap stands between two words of a sentence, and it is not empty. -/
  gaps : ∀ s ∈ t.children, s.children.IsChain fun v w =>
    v.stop < w.start ∧ IsGapBytes (bytesBetween text v.stop w.start)
  /-- One mark stands between two sentences, and gaps. -/
  marks : t.children.IsChain fun s u => IsMarkBytes (bytesBetween text s.stop u.start)
  /-- Only a gap stands behind the last sentence. -/
  behind : IsGapBytes (bytesBetween text t.stop (encode text.toList).length)

end Tree

/-! ## Gaps and marks in bytes -/

theorem encode_gapChars : Utf8.encode gapChars = gapBytes := by
  rfl

theorem IsGap.encode {g : List Char} (h : IsGap g) : IsGapBytes (Utf8.encode g) := by
  intro b hb
  obtain ⟨c, hc, hb⟩ := List.mem_flatMap.mp hb
  rw [← encode_gapChars]
  exact List.mem_flatMap.mpr ⟨c, h c hc, hb⟩

theorem IsMark.encode {cs : List Char} (h : IsMark cs) : IsMarkBytes (Utf8.encode cs) := by
  obtain ⟨g, g', hg, hg', rfl⟩ := h
  refine ⟨Utf8.encode g, Utf8.encode g', hg.encode, hg'.encode, ?_⟩
  rw [encode_append, encode_cons, encode_cons]
  rfl

/-- A mark takes up characters. -/
theorem IsMark.le_of_slice {text : List Char} {i j : ℕ} (h : IsMark (slice text i j)) : i ≤ j := by
  by_contra hlt
  obtain ⟨g, g', -, -, heq⟩ := h
  rw [slice, show j - i = 0 by omega, List.take_zero] at heq
  exact absurd heq.symm (by simp)

/-! ## Nodes and the characters they stand for -/

/-- The node `n` stands for the characters from the index `i` to the index `j`. -/
structure Tree.StandsFor (text : String) (n : Tree) (i j : ℕ) : Prop where
  lt : i < j
  le : j ≤ text.toList.length
  text_eq : n.text = String.ofList (slice text.toList i j)
  start_eq : n.start = (ByteIndex.of text.toList).offset i
  stop_eq : n.stop = (ByteIndex.of text.toList).offset j

namespace Tree.StandsFor

variable {text : String} {n m : Tree} {i j k l : ℕ}

theorem start_natCast (h : n.StandsFor text i j) :
    n.start = byteLength (text.toList.take i) := by
  rw [h.start_eq, ByteIndex.offset_natCast (h.lt.le.trans h.le)]

theorem stop_natCast (h : n.StandsFor text i j) :
    n.stop = byteLength (text.toList.take j) := by
  rw [h.stop_eq, ByteIndex.offset_natCast h.le]

theorem bounds (h : n.StandsFor text i j) :
    0 ≤ n.start ∧ n.start < n.stop ∧ n.stop ≤ (encode text.toList).length := by
  have hlt := byteLength_take_lt text.toList h.lt h.le
  have hle := byteLength_take_le_encode text.toList j
  rw [h.start_natCast, h.stop_natCast]
  omega

theorem bytes (h : n.StandsFor text i j) :
    bytesBetween text n.start n.stop = encode n.text.toList := by
  rw [h.start_eq, h.stop_eq, bytesBetween_offset text h.lt.le h.le, h.text_eq, String.toList_ofList]

/-- The bytes between two nodes are those of the characters between them. -/
theorem bytes_between (h : n.StandsFor text i j) (h' : m.StandsFor text k l) (hle : j ≤ k) :
    bytesBetween text n.stop m.start = encode (slice text.toList j k) := by
  rw [h.stop_eq, h'.start_eq, bytesBetween_offset text hle (h'.lt.le.trans h'.le)]

theorem stop_lt (h : n.StandsFor text i j) (h' : m.StandsFor text k l) (hlt : j < k) :
    n.stop < m.start := by
  have := byteLength_take_lt text.toList hlt (h'.lt.le.trans h'.le)
  rw [h.stop_natCast, h'.start_natCast]
  omega

theorem precedes (h : n.StandsFor text i j) (h' : m.StandsFor text k l) (hle : j ≤ k) :
    n.Precedes m := by
  have hdisjoint : n.stop ≤ m.start := by
    have := byteLength_take_le text.toList hle
    rw [h.stop_natCast, h'.start_natCast]
    omega
  have hn := h.bounds
  have hm := h'.bounds
  exact ⟨hdisjoint, by omega, by omega⟩

end Tree.StandsFor

/-! ## The nodes of a passage -/

/-- The word that a sentence ends with. -/
def Sentence.last (s : Sentence) : Word :=
  s.more.getLastD s.first

theorem Sentence.last_mem (s : Sentence) : s.last ∈ s.words :=
  List.getLastD_mem_cons

theorem Sentence.getLast_words (s : Sentence) (h : s.words ≠ []) : s.words.getLast h = s.last :=
  List.getLast_eq_getLastD h

namespace Passage

/-- The sentence that a passage ends with. -/
def last (p : Passage) : Sentence :=
  p.more.getLastD p.first

theorem last_mem (p : Passage) : p.last ∈ p.sentences :=
  List.getLastD_mem_cons

theorem getLast_sentences (p : Passage) (h : p.sentences ≠ []) : p.sentences.getLast h = p.last :=
  List.getLast_eq_getLastD h

theorem mem_walk_toTree {x : ByteIndex} {p : Passage} {n : Tree} :
    n ∈ (p.toTree x).walk ↔ n = p.toTree x ∨
      ∃ s ∈ p.sentences, n = s.toTree x ∨ ∃ w ∈ s.words, n = w.toTree x := by
  simp only [walk_toTree, List.mem_cons, List.mem_flatMap, List.mem_map, eq_comm]

/-- A node with children starts with the first of them and ends with the last. -/
theorem ends_toTree {x : ByteIndex} {p : Passage} {n : Tree} (hn : n ∈ (p.toTree x).walk)
    (hne : n.children ≠ []) :
    n.start = (n.children.head hne).start ∧ n.stop = (n.children.getLast hne).stop := by
  rcases mem_walk_toTree.mp hn with rfl | ⟨s, hs, rfl | ⟨w, hw, rfl⟩⟩
  · have hne' : p.sentences.map (Sentence.toTree x) ≠ [] := hne
    have hlast : (p.sentences.map (Sentence.toTree x)).getLast hne' =
        p.last.toTree x := by
      rw [List.getLast_map, getLast_sentences]
    exact ⟨rfl, (congrArg Tree.stop hlast).symm⟩
  · have hne' : s.words.map (Word.toTree x) ≠ [] := hne
    have hlast : (s.words.map (Word.toTree x)).getLast hne' =
        s.last.toTree x := by
      rw [List.getLast_map, Sentence.getLast_words]
    exact ⟨rfl, (congrArg Tree.stop hlast).symm⟩
  · exact absurd rfl hne

namespace LaidOut

variable {text : String} {p : Passage} (h : p.LaidOut text.toList)

include h

theorem word {s : Sentence} (hs : s ∈ p.sentences) {w : Word} (hw : w ∈ s.words) :
    w.Stands text.toList :=
  h.words w (List.mem_flatMap.mpr ⟨s, hs, hw⟩)

theorem standsFor_word {s : Sentence} (hs : s ∈ p.sentences) {w : Word} (hw : w ∈ s.words) :
    (w.toTree (.of text.toList)).StandsFor text w.start w.stop where
  lt := (h.word hs hw).start_lt_stop
  le := (h.word hs hw).stop_le
  text_eq := by
    rw [(h.word hs hw).slice_eq]
    rfl
  start_eq := rfl
  stop_eq := rfl

theorem ordered_words {s : Sentence} (hs : s ∈ p.sentences) :
    s.words.Pairwise fun v w => v.stop ≤ w.start :=
  (List.pairwise_flatMap.mp h.ordered).1 s hs

theorem ordered_sentences : p.sentences.Pairwise fun s t => s.stop ≤ t.start :=
  (List.pairwise_flatMap.mp h.ordered).2.imp fun {s _} hst =>
    hst s.last s.last_mem _ (List.mem_cons_self ..)

theorem standsFor_sentence {s : Sentence} (hs : s ∈ p.sentences) :
    (s.toTree (.of text.toList)).StandsFor text s.start s.stop where
  lt := by
    have hstart := Word.start_le (fun v hv => h.word hs hv) (h.ordered_words hs) _ s.last_mem
    have hlast := (h.word hs s.last_mem).start_lt_stop
    show s.first.start < s.last.stop
    omega
  le := (h.word hs s.last_mem).stop_le
  text_eq := rfl
  start_eq := rfl
  stop_eq := rfl

theorem standsFor : (p.toTree (.of text.toList)).StandsFor text p.start p.stop where
  lt := by
    have hstart := h.start_le _ (List.mem_flatMap.mpr ⟨_, p.last_mem, p.last.last_mem⟩)
    have hlast := (h.word p.last_mem p.last.last_mem).start_lt_stop
    show p.start < p.last.last.stop
    omega
  le := (h.word p.last_mem p.last.last_mem).stop_le
  text_eq := rfl
  start_eq := rfl
  stop_eq := rfl

/-- Every node stands for some characters. -/
theorem standsFor_node {n : Tree} (hn : n ∈ (p.toTree (.of text.toList)).walk) :
    ∃ i j, n.StandsFor text i j := by
  rcases mem_walk_toTree.mp hn with rfl | ⟨s, hs, rfl | ⟨w, hw, rfl⟩⟩
  · exact ⟨_, _, h.standsFor⟩
  · exact ⟨_, _, h.standsFor_sentence hs⟩
  · exact ⟨_, _, h.standsFor_word hs hw⟩

theorem ordered_children {n : Tree} (hn : n ∈ (p.toTree (.of text.toList)).walk) :
    n.children.Pairwise Tree.Precedes := by
  rcases mem_walk_toTree.mp hn with rfl | ⟨s, hs, rfl | ⟨w, hw, rfl⟩⟩
  · refine List.pairwise_map.mpr (h.ordered_sentences.imp_of_mem fun hs ht hst => ?_)
    exact (h.standsFor_sentence hs).precedes (h.standsFor_sentence ht) hst
  · refine List.pairwise_map.mpr ((h.ordered_words hs).imp_of_mem fun hv hw hvw => ?_)
    exact (h.standsFor_word hs hv).precedes (h.standsFor_word hs hw) hvw
  · exact .nil

/-- The words of all sentences lie one behind the other. -/
theorem pairwise_words :
    (p.words.map (Word.toTree (.of text.toList))).Pairwise Tree.Precedes := by
  refine List.pairwise_map.mpr (h.ordered.imp_of_mem fun {v w} hv hw hvw => ?_)
  obtain ⟨s, hs, hv⟩ := List.mem_flatMap.mp hv
  obtain ⟨u, hu, hw⟩ := List.mem_flatMap.mp hw
  exact (h.standsFor_word hs hv).precedes (h.standsFor_word hu hw) hvw

/-- The bytes in front of the first word. -/
theorem isGapBytes_before (hbefore : IsGap (slice text.toList 0 p.start)) :
    IsGapBytes (bytesBetween text 0 (p.toTree (.of text.toList)).start) := by
  have hle := h.standsFor.lt.le.trans h.standsFor.le
  have hbytes := bytesBetween_offset text (Nat.zero_le p.start) hle
  rw [ByteIndex.offset_natCast (Nat.zero_le _), List.take_zero, ← h.standsFor.start_eq] at hbytes
  exact hbytes ▸ hbefore.encode

/-- The bytes behind the last word. -/
theorem isGapBytes_behind :
    IsGapBytes (bytesBetween text (p.toTree (.of text.toList)).stop
      (encode text.toList).length) := by
  have hbytes := bytesBetween_offset text h.standsFor.le le_rfl
  rw [ByteIndex.offset_natCast le_rfl, List.take_length, ← h.standsFor.stop_eq] at hbytes
  exact hbytes ▸ h.behind.encode

/-- The bytes between two words of a sentence. -/
theorem isChain_words {s : Sentence} (hs : s ∈ p.sentences) :
    (s.words.map (Word.toTree (.of text.toList))).IsChain fun v w =>
      v.stop < w.start ∧ IsGapBytes (bytesBetween text v.stop w.start) := by
  refine (List.isChain_map _).mpr ((h.gaps s hs).imp_of_mem_imp fun v w hv hw hvw => ?_)
  have hv := h.standsFor_word hs hv
  have hw := h.standsFor_word hs hw
  rw [hv.bytes_between hw hvw.1.le]
  exact ⟨hv.stop_lt hw hvw.1, hvw.2.encode⟩

/-- The bytes between two sentences. -/
theorem isChain_sentences :
    (p.sentences.map (Sentence.toTree (.of text.toList))).IsChain fun s u =>
      IsMarkBytes (bytesBetween text s.stop u.start) := by
  refine (List.isChain_map _).mpr (h.marks.imp_of_mem_imp fun s u hs hu hmark => ?_)
  have hs := h.standsFor_sentence hs
  have hu := h.standsFor_sentence hu
  rw [hs.bytes_between hu hmark.le_of_slice]
  exact hmark.encode

end LaidOut

end Passage

/-- **The tree of a text describes it.** -/
theorem ofText_describes {text : String} {t : Tree} (ht : Tree.ofText text = .ok t) :
    t.Describes text := by
  obtain ⟨p, hp, rfl⟩ := Tree.ofText_eq_ok_iff.mp ht
  obtain ⟨h, hbefore⟩ := Passage.laidOut_of_ofText hp
  constructor
  case root => exact ⟨rfl, List.cons_ne_nil _ _⟩
  case sentences =>
    intro s hs
    obtain ⟨s, -, rfl⟩ := List.mem_map.mp hs
    exact ⟨rfl, List.cons_ne_nil _ _⟩
  case words =>
    intro m hm n hn
    obtain ⟨s, hs, rfl⟩ := List.mem_map.mp hm
    obtain ⟨w, hw, rfl⟩ := List.mem_map.mp hn
    refine ⟨rfl, rfl, ?_⟩
    show IsWord (String.ofList w.letters).toList
    rw [String.toList_ofList]
    exact (h.word hs hw).letters
  case bounds =>
    intro n hn
    obtain ⟨i, j, hij⟩ := h.standsFor_node hn
    exact hij.bounds
  case bytes =>
    intro n hn
    obtain ⟨i, j, hij⟩ := h.standsFor_node hn
    exact hij.bytes
  case ends => exact fun n hn hne => Passage.ends_toTree hn hne
  case ordered => exact fun n hn => h.ordered_children hn
  case before => exact h.isGapBytes_before hbefore
  case gaps =>
    intro m hm
    obtain ⟨s, hs, rfl⟩ := List.mem_map.mp hm
    exact h.isChain_words hs
  case marks => exact h.isChain_sentences
  case behind => exact h.isGapBytes_behind

/-- The tree of `mi.ii le'i` between two gaps. -/
def gluedTree : Tree :=
  .node .text "mi.ii le'i" 1 11
    [.node .sentence "mi" 1 3 [.node .word "mi" 1 3 []],
      .node .sentence "i le'i" 5 11 [.node .word "i" 5 6 [], .node .word "le'i" 7 11 []]]

theorem gluedTree_describes :
    Tree.ofText "\tmi.ii le'i\n" = .ok gluedTree ∧ gluedTree.Describes "\tmi.ii le'i\n" := by
  have h : Tree.ofText "\tmi.ii le'i\n" = .ok gluedTree := by cbv
  exact ⟨h, ofText_describes h⟩

end Lojban
