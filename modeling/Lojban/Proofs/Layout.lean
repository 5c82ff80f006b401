import Lojban.Proofs.Scanning
import Lojban.Tree.OfText

/-!
# A passage where it stands in a text

`Passage.Written i cs p` says that the text `cs`, whose first character has the index `i`, is the
passage `p` from its first word on, with whatever gaps. `ofText_eq_ok_iff` says that a text is read
as `p` exactly when, behind a gap, `p` is written in it.
-/

namespace Lojban

namespace Passage

/-- The passage `p` makes up a text whose first character, that of its first word, has the index
`i`. -/
inductive Written : ℕ → List Char → Passage → Prop
  | last {i : ℕ} {w g : List Char} (hw : IsWord w) (hg : IsGap g) :
      Written i (w ++ g) ⟨⟨⟨i, w⟩, []⟩, []⟩
  | word {i : ℕ} {w g cs : List Char} {p : Passage} (hw : IsWord w) (hg : IsGap g) (hne : g ≠ [])
      (h : Written (i + w.length + g.length) cs p) :
      Written i (w ++ (g ++ cs)) (p.consWord ⟨i, w⟩)
  | mark {i : ℕ} {w g g' cs : List Char} {p : Passage} (hw : IsWord w) (hg : IsGap g)
      (hg' : IsGap g') (h : Written (i + w.length + g.length + 2 + g'.length) cs p) :
      Written i (w ++ (g ++ '.' :: 'i' :: (g' ++ cs))) (p.consSentence ⟨i, w⟩)

namespace Written

/-- A written passage is scanned into its first word and tokens that read as the passage behind
that word. -/
theorem scans {i : ℕ} {cs : List Char} {p : Passage} (h : Written i cs p) :
    ∃ w ts, Scans i cs (.word w :: ts) ∧ ofTokensBehind w ts = .ok p := by
  have hnil : IsGap [] := by simp [IsGap]
  induction h with
  | @last i w g hw hg =>
    exact ⟨⟨i, w⟩, [], Scans.word hnil hw hg.endsWord_self (.done hg), rfl⟩
  | @word i w g cs p hw hg hne _ ih =>
    obtain ⟨v, ts, hscan, hread⟩ := ih
    refine ⟨⟨i, w⟩, .word v :: ts,
      Scans.word hnil hw (hg.endsWord hne cs) (hscan.gap_append hg), ?_⟩
    rw [ofTokensBehind, hread]
    rfl
  | @mark i w g g' cs p hw hg hg' _ ih =>
    obtain ⟨v, ts, hscan, hread⟩ := ih
    have hend : EndsWord (g ++ '.' :: 'i' :: (g' ++ cs)) := by
      cases g with
      | nil => exact endsWord_dot _
      | cons c g => exact hg.endsWord (List.cons_ne_nil c g) _
    refine ⟨⟨i, w⟩, .mark (i + w.length + g.length) :: .word v :: ts,
      Scans.word hnil hw hend (Scans.mark hg (hscan.gap_append hg')), ?_⟩
    rw [ofTokensBehind, ofTokensFrom, hread]
    rfl

end Written

/-- Tokens of a text that read as a passage, at both places of the reader: behind a word, the
passage is written from that word on; where a word has to come, it is written behind a gap. -/
theorem written_of_scans {i : ℕ} {cs : List Char} {ts : List Token} (h : Scans i cs ts) :
    (∀ j w p, IsWord w → EndsWord cs → j + w.length = i → ofTokensBehind ⟨j, w⟩ ts = .ok p →
      Written j (w ++ cs) p) ∧
    (∀ before p, ofTokensFrom before ts = .ok p →
      ∃ g ds, IsGap g ∧ cs = g ++ ds ∧ Written (i + g.length) ds p) := by
  induction h with
  | @done i g hg =>
    constructor
    · intro j w p hw _ _ hread
      cases hread
      exact .last hw hg
    · intro before p hread
      cases hread
  | @word i g v cs ts hg hv hcs _ ih =>
    have key : ∀ p, ofTokensBehind ⟨i + g.length, v⟩ ts = .ok p →
        Written (i + g.length) (v ++ cs) p := fun p hread => ih.1 _ v p hv hcs rfl hread
    constructor
    · intro j w p hw hend hj hread
      rw [ofTokensBehind] at hread
      cases hq : ofTokensBehind ⟨i + g.length, v⟩ ts with
      | error f => rw [hq] at hread; cases hread
      | ok q =>
        rw [hq] at hread
        cases hread
        -- without a gap the second word would have been part of the first
        have hne : g ≠ [] := by
          rintro rfl
          exact hv.not_endsWord cs hend
        subst hj
        exact .word hw hg hne (key q hq)
    · intro before p hread
      exact ⟨g, v ++ cs, hg, rfl, key p hread⟩
  | @mark i g cs ts hg _ ih =>
    constructor
    · intro j w p hw _ hj hread
      rw [ofTokensBehind] at hread
      cases hq : ofTokensFrom (.mark (i + g.length)) ts with
      | error f => rw [hq] at hread; cases hread
      | ok q =>
        rw [hq] at hread
        cases hread
        obtain ⟨g', ds, hg', rfl, hwritten⟩ := ih.2 _ q hq
        subst hj
        exact .mark hw hg hg' hwritten
    · intro before p hread
      cases hread
  | stray =>
    exact ⟨fun _ _ _ _ _ _ hread => (by cases hread), fun _ _ hread => (by cases hread)⟩

/-- **A text is read as `p` exactly when `p` is written in it, behind a gap.** -/
theorem ofText_eq_ok_iff {text : List Char} {p : Passage} :
    ofText text = .ok p ↔
      ∃ g cs, IsGap g ∧ text = g ++ cs ∧ Written g.length cs p := by
  constructor
  · intro h
    obtain ⟨g, cs, hg, htext, hwritten⟩ := (written_of_scans (Token.scans_scan 0 text)).2 _ p h
    rw [Nat.zero_add] at hwritten
    exact ⟨g, cs, hg, htext, hwritten⟩
  · rintro ⟨g, cs, hg, rfl, hwritten⟩
    obtain ⟨w, ts, hscan, hread⟩ := hwritten.scans
    have hscan := Scans.gap_append (i := 0) hg (by rw [Nat.zero_add]; exact hscan)
    rw [ofText, hscan.scan_eq]
    exact hread

end Passage

end Lojban
