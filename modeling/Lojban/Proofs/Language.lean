import Lojban.Proofs.Layout
import Lojban.Proofs.PassageTree

/-!
# The language of texts

The texts that have a tree, described without the reader. `IsSentence` puts words together and
`IsPassage` sentences; `Writes ss text` says that `text` is the sentences `ss` between two gaps.

Main result: `ofText_language`. A text has a tree with the sentences `ss` exactly when it is written
as `ss`; every other text is refused, and no text is written as two different lists of sentences.
-/

namespace Lojban

/-! ## Specification -/

/-- The words `ws` in order, with a gap between each two that is not empty. -/
inductive IsSentence : List (List Char) → List Char → Prop
  | one {w : List Char} (hw : IsWord w) : IsSentence [w] w
  | cons {w g cs : List Char} {ws : List (List Char)} (hw : IsWord w) (hg : IsGap g) (hne : g ≠ [])
      (h : IsSentence ws cs) : IsSentence (w :: ws) (w ++ (g ++ cs))

/-- The sentences `ss` in order, with a mark between each two; a gap may stand on either side of the
mark. -/
inductive IsPassage : List (List (List Char)) → List Char → Prop
  | one {ws : List (List Char)} {cs : List Char} (h : IsSentence ws cs) : IsPassage [ws] cs
  | cons {ws : List (List Char)} {cs g g' ds : List Char} {ss : List (List (List Char))}
      (hs : IsSentence ws cs) (hg : IsGap g) (hg' : IsGap g') (h : IsPassage ss ds) :
      IsPassage (ws :: ss) (cs ++ (g ++ '.' :: 'i' :: (g' ++ ds)))

/-- The text is the sentences `ss`, each given by its words, with a gap in front and one at the
end. -/
def Writes (ss : List (List String)) (text : String) : Prop :=
  ∃ g cs g', IsGap g ∧ IsGap g' ∧ IsPassage (ss.map (List.map String.toList)) cs ∧
    text.toList = g ++ (cs ++ g')

/-! ## Sentences of a written passage -/

namespace Passage

/-- The letters of the words, sentence by sentence. -/
def wordLists (p : Passage) : List (List (List Char)) :=
  p.sentences.map fun s => s.words.map Word.letters

theorem wordLists_consWord (w : Word) (p : Passage) :
    (p.consWord w).wordLists = (w.letters :: p.first.words.map Word.letters) ::
      p.more.map fun s => s.words.map Word.letters := rfl

theorem wordLists_consSentence (w : Word) (p : Passage) :
    (p.consSentence w).wordLists = [w.letters] :: p.wordLists := rfl

theorem wordLists_eq (p : Passage) :
    p.wordLists = p.first.words.map Word.letters ::
      p.more.map fun s => s.words.map Word.letters := rfl

/-- A word in front of what is written is written, with the gap between them. -/
theorem exists_written_word {i : ℕ} {w g cs : List Char} {ws : List (List Char)}
    {ss : List (List (List Char))} (hw : IsWord w) (hg : IsGap g) (hne : g ≠ [])
    (h : ∃ p, Written (i + w.length + g.length) cs p ∧ p.wordLists = ws :: ss) :
    ∃ p, Written i (w ++ (g ++ cs)) p ∧ p.wordLists = (w :: ws) :: ss := by
  obtain ⟨p, hp, hws⟩ := h
  rw [wordLists_eq] at hws
  obtain ⟨hfirst, hmore⟩ := List.cons.inj hws
  refine ⟨p.consWord ⟨i, w⟩, .word hw hg hne hp, ?_⟩
  rw [wordLists_consWord, hfirst, hmore]

/-- A sentence at the end of a text is written, with the gap behind it. -/
theorem exists_written_last {ws : List (List Char)} {cs g : List Char} (h : IsSentence ws cs)
    (hg : IsGap g) (i : ℕ) : ∃ p, Written i (cs ++ g) p ∧ p.wordLists = [ws] := by
  induction h generalizing i with
  | @one w hw => exact ⟨_, .last hw hg, rfl⟩
  | @cons w g₀ cs ws hw hg₀ hne _ ih =>
    have := exists_written_word hw hg₀ hne (ih (i + w.length + g₀.length))
    simpa only [List.append_assoc] using this

/-- A sentence in front of a written passage is written, with the mark between them. -/
theorem exists_written_cons {ws : List (List Char)} {cs g g' ds : List Char} {q : Passage}
    (h : IsSentence ws cs) (hg : IsGap g) (hg' : IsGap g') (i : ℕ)
    (hq : Written (i + cs.length + g.length + 2 + g'.length) ds q) :
    ∃ p, Written i (cs ++ (g ++ '.' :: 'i' :: (g' ++ ds))) p ∧ p.wordLists = ws :: q.wordLists := by
  induction h generalizing i with
  | @one w hw => exact ⟨_, .mark hw hg hg' hq, rfl⟩
  | @cons w g₀ cs ws hw hg₀ hne _ ih =>
    have hstart : i + (w ++ (g₀ ++ cs)).length = i + w.length + g₀.length + cs.length := by
      simp only [List.length_append]
      omega
    rw [hstart] at hq
    have := exists_written_word hw hg₀ hne (ih (i + w.length + g₀.length) hq)
    simpa only [List.append_assoc] using this

theorem exists_written {ss : List (List (List Char))} {cs g : List Char} (h : IsPassage ss cs)
    (hg : IsGap g) (i : ℕ) : ∃ p, Written i (cs ++ g) p ∧ p.wordLists = ss := by
  induction h generalizing i with
  | one h => exact exists_written_last h hg i
  | @cons ws cs g₁ g₂ ds ss hs hg₁ hg₂ _ ih =>
    obtain ⟨q, hq, hss⟩ := ih (i + cs.length + g₁.length + 2 + g₂.length)
    obtain ⟨p, hp, hws⟩ := exists_written_cons hs hg₁ hg₂ i hq
    rw [hss] at hws
    exact ⟨p, by simpa using hp, hws⟩

/-- A word in front of a passage goes into its first sentence. -/
theorem isPassage_consWord {w g cs : List Char} {ws : List (List Char)}
    {ss : List (List (List Char))} (hw : IsWord w) (hg : IsGap g) (hne : g ≠ [])
    (h : IsPassage (ws :: ss) cs) : IsPassage ((w :: ws) :: ss) (w ++ (g ++ cs)) := by
  cases h with
  | one h => exact .one (.cons hw hg hne h)
  | cons hs hg₁ hg₂ h => simpa using IsPassage.cons (.cons hw hg hne hs) hg₁ hg₂ h

namespace Written

/-- What is written is the passage's own sentences, and a gap at the end. -/
theorem isPassage {i : ℕ} {cs : List Char} {p : Passage} (h : Written i cs p) :
    ∃ ds g, IsGap g ∧ cs = ds ++ g ∧ IsPassage p.wordLists ds := by
  induction h with
  | @last i w g hw hg => exact ⟨w, g, hg, rfl, .one (.one hw)⟩
  | @word i w g cs p hw hg hne _ ih =>
    obtain ⟨ds, g', hg', rfl, hds⟩ := ih
    rw [wordLists_eq] at hds
    refine ⟨w ++ (g ++ ds), g', hg', by simp, ?_⟩
    rw [wordLists_consWord]
    exact isPassage_consWord hw hg hne hds
  | @mark i w g g₁ cs p hw hg hg₁ _ ih =>
    obtain ⟨ds, g', hg', rfl, hds⟩ := ih
    refine ⟨w ++ (g ++ '.' :: 'i' :: (g₁ ++ ds)), g', hg', by simp, ?_⟩
    rw [wordLists_consSentence]
    exact .cons (.one hw) hg hg₁ hds

end Written

theorem words_children_toTree (x : Text.ByteIndex) (p : Passage) :
    (p.toTree x).children.map Tree.words = p.wordLists.map (List.map String.ofList) := by
  show (p.sentences.map (Sentence.toTree x)).map Tree.words = _
  rw [wordLists, List.map_map, List.map_map]
  congr 1
  funext s
  show (s.toTree x).words = _
  rw [Sentence.words_toTree, Function.comp_apply, List.map_map]
  rfl

end Passage

/-! ## The tree of a text and its language -/

theorem map_toList_map_ofList (ss : List (List (List Char))) :
    (ss.map (List.map String.ofList)).map (List.map String.toList) = ss := by
  have h : Function.LeftInverse String.toList String.ofList := fun _ => String.toList_ofList
  exact h.list_map.list_map ss

theorem map_ofList_map_toList (ss : List (List String)) :
    (ss.map (List.map String.toList)).map (List.map String.ofList) = ss := by
  have h : Function.LeftInverse String.ofList String.toList := fun _ => String.ofList_toList
  exact h.list_map.list_map ss

theorem Passage.ofText_writes_iff {ss : List (List String)} {text : String} :
    (∃ p, Passage.ofText text.toList = .ok p ∧ p.wordLists = ss.map (List.map String.toList)) ↔
      Writes ss text := by
  constructor
  · rintro ⟨p, hp, hws⟩
    obtain ⟨g, cs, hg, htext, hwritten⟩ := ofText_eq_ok_iff.mp hp
    obtain ⟨ds, g', hg', rfl, hds⟩ := hwritten.isPassage
    exact ⟨g, ds, g', hg, hg', hws ▸ hds, htext⟩
  · rintro ⟨g, cs, g', hg, hg', hcs, htext⟩
    obtain ⟨p, hp, hws⟩ := exists_written hcs hg' g.length
    exact ⟨p, ofText_eq_ok_iff.mpr ⟨g, cs ++ g', hg, htext, hp⟩, hws⟩

theorem Tree.ofText_words_iff {ss : List (List String)} {text : String} :
    (∃ t, Tree.ofText text = .ok t ∧ (∀ s ∈ t.children, s.tag = .sentence) ∧
      t.children.map Tree.words = ss) ↔ Writes ss text := by
  rw [← Passage.ofText_writes_iff]
  constructor
  · rintro ⟨t, ht, -, hss⟩
    obtain ⟨p, hp, rfl⟩ := Tree.ofText_eq_ok_iff.mp ht
    rw [Passage.words_children_toTree] at hss
    exact ⟨p, hp, by rw [← hss, map_toList_map_ofList]⟩
  · rintro ⟨p, hp, hss⟩
    refine ⟨_, Tree.ofText_eq_ok_iff.mpr ⟨p, hp, rfl⟩, ?_, ?_⟩
    · intro s hs
      obtain ⟨s, -, rfl⟩ := List.mem_map.mp hs
      rfl
    · rw [Passage.words_children_toTree, hss, map_ofList_map_toList]

/-- **The language of texts.** A text has a tree whose children are sentences with the words `ss`
exactly when it is written as `ss`; the texts that are written in no way are those that are refused;
and a text is written in one way at most. -/
theorem ofText_language (text : String) :
    (∀ ss : List (List String),
      (∃ t, Tree.ofText text = .ok t ∧ (∀ s ∈ t.children, s.tag = .sentence) ∧
        t.children.map Tree.words = ss) ↔ Writes ss text) ∧
    ((∃ e, Tree.ofText text = .error e) ↔ ¬ ∃ ss, Writes ss text) ∧
    ∀ ss ss', Writes ss text → Writes ss' text → ss = ss' := by
  refine ⟨fun ss => Tree.ofText_words_iff, ⟨?_, ?_⟩, ?_⟩
  · rintro ⟨e, he⟩ ⟨ss, hss⟩
    obtain ⟨t, ht, -⟩ := Tree.ofText_words_iff.mpr hss
    rw [he] at ht
    cases ht
  · intro hno
    cases ht : Tree.ofText text with
    | error e => exact ⟨e, rfl⟩
    | ok t =>
      obtain ⟨p, hp, -⟩ := Tree.ofText_eq_ok_iff.mp ht
      exact absurd ⟨_, Passage.ofText_writes_iff.mp
        ⟨p, hp, (map_toList_map_ofList p.wordLists).symm⟩⟩ hno
  · intro ss ss' hss hss'
    obtain ⟨t, ht, -, rfl⟩ := Tree.ofText_words_iff.mpr hss
    obtain ⟨t', ht', -, rfl⟩ := Tree.ofText_words_iff.mpr hss'
    rw [ht] at ht'
    cases ht'
    rfl

end Lojban
