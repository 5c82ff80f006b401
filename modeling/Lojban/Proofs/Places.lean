import Lojban.Proofs.ByteOffsets
import Lojban.Proofs.Layout
import Lojban.Proofs.PassageTree

/-!
# Where the parts of a passage lie

`Passage.LaidOut text p` holds when the words of `p` stand in `text` one behind the other, with
nothing but gaps and marks between them. `laidOut_of_ofText` says that this is how the passage that
is read from a text lies in it.
-/

namespace Lojban

open Text

theorem slice_eq {text ys : List Char} (xs zs : List Char) {i j : ℕ} (h : text = xs ++ (ys ++ zs))
    (hi : xs.length = i) (hj : i + ys.length = j) : slice text i j = ys := by
  subst h hi hj
  exact slice_append_middle xs ys zs

/-! ## Words, gaps and marks of a passage -/

/-- A mark with a gap on either side. -/
def IsMark (cs : List Char) : Prop :=
  ∃ g g', IsGap g ∧ IsGap g' ∧ cs = g ++ '.' :: 'i' :: g'

/-- The letters of `w` are those of the text at its place. -/
structure Word.Stands (text : List Char) (w : Word) : Prop where
  letters : IsWord w.letters
  slice_eq : slice text w.start w.stop = w.letters
  stop_le : w.stop ≤ text.length

/-- The passage `p` lies in `text`, with nothing but gaps and marks between its words and a gap
behind it. -/
structure Passage.LaidOut (text : List Char) (p : Passage) : Prop where
  words : ∀ w ∈ p.words, w.Stands text
  ordered : p.words.Pairwise fun v w => v.stop ≤ w.start
  gaps : ∀ s ∈ p.sentences, s.words.IsChain fun v w =>
    v.stop < w.start ∧ IsGap (slice text v.stop w.start)
  marks : p.sentences.IsChain fun s t => IsMark (slice text s.stop t.start)
  behind : IsGap (slice text p.stop text.length)

theorem Word.Stands.start_lt_stop {text : List Char} {w : Word} (h : w.Stands text) :
    w.start < w.stop := by
  have := List.length_pos_iff.mpr h.letters.1
  unfold Word.stop
  omega

theorem Word.stands_append {pre w : List Char} {i : ℕ} (hw : IsWord w) (hi : pre.length = i)
    (cs : List Char) : Word.Stands (pre ++ (w ++ cs)) ⟨i, w⟩ where
  letters := hw
  slice_eq := Lojban.slice_eq pre cs rfl hi rfl
  stop_le := by simp [Word.stop, hi]

/-- The first of some words that stand in order starts first. -/
theorem Word.start_le {text : List Char} {w : Word} {ws : List Word}
    (hs : ∀ v ∈ w :: ws, v.Stands text)
    (h : (w :: ws).Pairwise fun v w => v.stop ≤ w.start) : ∀ v ∈ w :: ws, w.start ≤ v.start := by
  intro v hv
  rcases List.mem_cons.mp hv with rfl | hv
  · exact le_rfl
  · have := (hs w (List.mem_cons_self ..)).start_lt_stop
    have := (List.pairwise_cons.mp h).1 v hv
    omega

namespace Passage

theorem stop_consWord (w : Word) (p : Passage) : (p.consWord w).stop = p.stop := by
  obtain ⟨⟨v, vs⟩, ss⟩ := p
  cases ss with
  | nil =>
    show ((v :: vs).getLastD w).stop = (vs.getLastD v).stop
    rw [List.getLastD_cons]
  | cons s ss =>
    show ((s :: ss).getLastD _).stop = ((s :: ss).getLastD _).stop
    rw [List.getLastD_cons, List.getLastD_cons]

theorem stop_consSentence (w : Word) (p : Passage) : (p.consSentence w).stop = p.stop := by
  show ((p.first :: p.more).getLastD _).stop = _
  rw [List.getLastD_cons]
  rfl

theorem stop_first_consWord (w : Word) (p : Passage) :
    (p.consWord w).first.stop = p.first.stop := by
  show ((p.first.first :: p.first.more).getLastD w).stop = _
  rw [List.getLastD_cons]
  rfl

namespace LaidOut

variable {text : List Char} {p : Passage} {w : Word}

theorem start_le (h : p.LaidOut text) : ∀ v ∈ p.words, p.start ≤ v.start :=
  Word.start_le h.words h.ordered

/-- A single word with a gap behind it. -/
theorem single (hw : w.Stands text) (hg : IsGap (slice text w.stop text.length)) :
    LaidOut text ⟨⟨w, []⟩, []⟩ where
  words v hv := by
    obtain rfl : v = w := List.mem_singleton.mp hv
    exact hw
  ordered := List.pairwise_singleton _ _
  gaps s hs := by
    obtain rfl : s = ⟨w, []⟩ := List.mem_singleton.mp hs
    exact .singleton _
  marks := .singleton _
  behind := hg

/-- One more word at the front, with a gap between it and the passage. -/
theorem consWord (hp : p.LaidOut text) (hw : w.Stands text) (hlt : w.stop < p.start)
    (hg : IsGap (slice text w.stop p.start)) : (p.consWord w).LaidOut text where
  words v hv := by
    rw [words_consWord, List.mem_cons] at hv
    rcases hv with rfl | hv
    · exact hw
    · exact hp.words v hv
  ordered := by
    rw [words_consWord, List.pairwise_cons]
    exact ⟨fun v hv => hlt.le.trans (hp.start_le v hv), hp.ordered⟩
  gaps s hs := by
    rcases List.mem_cons.mp hs with rfl | hs
    · exact List.isChain_cons_cons.mpr ⟨⟨hlt, hg⟩, hp.gaps p.first (List.mem_cons_self ..)⟩
    · exact hp.gaps s (List.mem_cons_of_mem _ hs)
  marks := by
    -- the first sentence still ends where it did
    have hmarks := List.isChain_cons.mp hp.marks
    refine List.isChain_cons.mpr ⟨fun t ht => ?_, hmarks.2⟩
    have := hmarks.1 t ht
    rwa [← stop_first_consWord w] at this
  behind := by
    rw [stop_consWord]
    exact hp.behind

/-- One more sentence at the front, with a mark between it and the passage. -/
theorem consSentence (hp : p.LaidOut text) (hw : w.Stands text) (hle : w.stop ≤ p.start)
    (hm : IsMark (slice text w.stop p.start)) : (p.consSentence w).LaidOut text where
  words v hv := by
    rw [words_consSentence, List.mem_cons] at hv
    rcases hv with rfl | hv
    · exact hw
    · exact hp.words v hv
  ordered := by
    rw [words_consSentence, List.pairwise_cons]
    exact ⟨fun v hv => hle.trans (hp.start_le v hv), hp.ordered⟩
  gaps s hs := by
    rcases List.mem_cons.mp hs with rfl | hs
    · exact .singleton _
    · exact hp.gaps s hs
  marks := List.isChain_cons_cons.mpr ⟨hm, hp.marks⟩
  behind := by
    rw [stop_consSentence]
    exact hp.behind

end LaidOut

namespace Written

theorem start_eq {i : ℕ} {cs : List Char} {p : Passage} (h : Written i cs p) : p.start = i := by
  cases h <;> rfl

/-- A written passage lies in every text that goes on with it. -/
theorem laidOut {i : ℕ} {cs : List Char} {p : Passage} (h : Written i cs p) :
    ∀ pre, pre.length = i → p.LaidOut (pre ++ cs) := by
  induction h with
  | @last i w g hw hg =>
    intro pre hi
    refine .single (Word.stands_append hw hi _) ?_
    have : slice (pre ++ (w ++ g)) (i + w.length) (pre ++ (w ++ g)).length = g :=
      slice_eq (pre ++ w) [] (by simp) (by simp [hi]) (by simp [hi]; omega)
    exact this.symm ▸ hg
  | @word i w g cs p hw hg hne h ih =>
    intro pre hi
    have hp := ih (pre ++ w ++ g) (by simp [hi]; omega)
    rw [show pre ++ w ++ g ++ cs = pre ++ (w ++ (g ++ cs)) by simp] at hp
    refine hp.consWord (Word.stands_append hw hi _) ?_ ?_ <;> rw [h.start_eq]
    · have := List.length_pos_iff.mpr hne
      show i + w.length < _
      omega
    · have : slice (pre ++ (w ++ (g ++ cs))) (i + w.length) (i + w.length + g.length) = g :=
        slice_eq (pre ++ w) cs (by simp) (by simp [hi]) rfl
      exact this.symm ▸ hg
  | @mark i w g g' cs p hw hg hg' h ih =>
    intro pre hi
    have hp := ih (pre ++ w ++ g ++ '.' :: 'i' :: g') (by simp [hi]; omega)
    rw [show pre ++ w ++ g ++ '.' :: 'i' :: g' ++ cs =
      pre ++ (w ++ (g ++ '.' :: 'i' :: (g' ++ cs))) by simp] at hp
    refine hp.consSentence (Word.stands_append hw hi _) ?_ ?_ <;> rw [h.start_eq]
    · show i + w.length ≤ _
      omega
    · have : slice (pre ++ (w ++ (g ++ '.' :: 'i' :: (g' ++ cs)))) (i + w.length)
          (i + w.length + g.length + 2 + g'.length) = g ++ '.' :: 'i' :: g' :=
        slice_eq (pre ++ w) cs (by simp) (by simp [hi]) (by simp; omega)
      exact ⟨g, g', hg, hg', this⟩

end Written

/-- The passage of a text lies in the text, behind a gap. -/
theorem laidOut_of_ofText {text : List Char} {p : Passage} (h : ofText text = .ok p) :
    p.LaidOut text ∧ IsGap (slice text 0 p.start) := by
  obtain ⟨g, cs, hg, rfl, hwritten⟩ := ofText_eq_ok_iff.mp h
  refine ⟨hwritten.laidOut g rfl, ?_⟩
  have : slice (g ++ cs) 0 g.length = g := slice_eq [] cs rfl rfl (Nat.zero_add _)
  rwa [hwritten.start_eq, this]

end Passage

end Lojban
