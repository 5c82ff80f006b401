import Lojban.Proofs.Outcomes

/-!
# Reading with a larger lexicon

`lex.CoveredBy lex'` says that `lex'` lists every word that `lex` lists, as far as the word is made
of letters. Nothing else of a lexicon matters: not which list a word is in, not the combining forms,
and no entry that is no word of any text.

Main result: `read_covered`. With the larger lexicon the texts that were accepted still are, a word
that is reported does not stand further to the left, and the texts without a tree are refused as
before.
-/

namespace Lojban

open Text

/-! ## Specification -/

namespace Lexicon

/-- Every word of letters that `lex` lists is listed by `lex'`, too. -/
def CoveredBy (lex lex' : Lexicon) : Prop :=
  ∀ word : String, IsWord word.toList → lex.Lists word → lex'.Lists word

end Lexicon

/-! ## Words that are not listed -/

/-- The words of a text are made of letters. -/
theorem Passage.LaidOut.isWord_text {text : String} {p : Passage} (h : p.LaidOut text.toList)
    {n : Tree} (hn : n ∈ (p.toTree (.of text.toList)).walk) (hword : n.isWord = true) :
    IsWord n.text.toList := by
  rcases Passage.mem_walk_toTree.mp hn with rfl | ⟨s, hs, rfl | ⟨w, hw, rfl⟩⟩
  · cases hword
  · cases hword
  · show IsWord (String.ofList w.letters).toList
    rw [String.toList_ofList]
    exact (h.word hs hw).letters

namespace Lexicon

theorem mem_unlisted {lex : Lexicon} {t n : Tree} :
    n ∈ lex.unlisted t ↔ n ∈ t.walk ∧ n.isWord = true ∧ ¬ lex.Lists n.text := by
  simp [unlisted]

section Covered

variable {lex lex' : Lexicon} {text : String} {p : Passage}

/-- What the larger lexicon does not list, the smaller does not. -/
theorem CoveredBy.mem_unlisted (h : lex.CoveredBy lex') (hp : p.LaidOut text.toList) {n : Tree}
    (hn : n ∈ lex'.unlisted (p.toTree (.of text.toList))) :
    n ∈ lex.unlisted (p.toTree (.of text.toList)) := by
  obtain ⟨hwalk, hword, hlists⟩ := Lexicon.mem_unlisted.mp hn
  refine Lexicon.mem_unlisted.mpr ⟨hwalk, hword, ?_⟩
  intro hlisted
  exact hlists (h n.text (hp.isWord_text hwalk hword) hlisted)

/-- Lexicons with the same words of letters leave the same words unlisted. -/
theorem CoveredBy.unlisted_eq (h : lex.CoveredBy lex') (h' : lex'.CoveredBy lex)
    (hp : p.LaidOut text.toList) :
    lex.unlisted (p.toTree (.of text.toList)) = lex'.unlisted (p.toTree (.of text.toList)) := by
  unfold unlisted
  apply List.filter_congr
  intro n hn
  have hiff : n.isWord = true → (lex.Lists n.text ↔ lex'.Lists n.text) := fun hword =>
    ⟨h n.text (hp.isWord_text hn hword), h' n.text (hp.isWord_text hn hword)⟩
  by_cases hword : n.isWord = true
  · simp [hword, hiff hword]
  · simp [hword]

/-- The first word that the larger lexicon does not list stands behind the first that the smaller
does not, or is the same. -/
theorem CoveredBy.exists_head?_unlisted (h : lex.CoveredBy lex') (hp : p.LaidOut text.toList)
    {n : Tree} (hn : (lex'.unlisted (p.toTree (.of text.toList))).head? = some n) :
    ∃ m, (lex.unlisted (p.toTree (.of text.toList))).head? = some m ∧ m.start ≤ n.start := by
  have hmem := h.mem_unlisted hp (List.mem_of_mem_head? hn)
  have hordered := hp.pairwise_unlisted lex
  cases hm : lex.unlisted (p.toTree (.of text.toList)) with
  | nil =>
    rw [hm] at hmem
    exact absurd hmem List.not_mem_nil
  | cons m rest =>
    rw [hm] at hmem hordered
    refine ⟨m, rfl, ?_⟩
    rcases List.mem_cons.mp hmem with rfl | hrest
    · exact le_rfl
    · exact ((List.pairwise_cons.mp hordered).1 n hrest).start_lt.le

end Covered

/-! ## What reading gives -/

section Outcome

variable {lex : Lexicon} {threshold : Level} {text : String} {p : Passage}
  (hp : Passage.ofText text.toList = .ok p)

include hp

/-- The outcome for a text that has a tree, by the words that are not listed. -/
theorem value_read_of_ofText :
    (lex.read threshold text).value =
      match (lex.unlisted (p.toTree (.of text.toList))).head? with
      | none => .ok (p.toTree (.of text.toList))
      | some w => .error (.unknownWord { word := w.text, span := w.span }) := by
  have hread := value_read lex threshold text
  simp only [Tree.ofText_eq_ok_iff.mpr ⟨p, hp, rfl⟩,
    firstUnknown?_eq_head? lex _ Passage.children_eq_nil] at hread
  exact hread

theorem read_eq_ok_iff {t : Tree} :
    (lex.read threshold text).value = .ok t ↔
      (lex.unlisted (p.toTree (.of text.toList))).head? = none ∧
        p.toTree (.of text.toList) = t := by
  rw [value_read_of_ofText hp]
  cases (lex.unlisted (p.toTree (.of text.toList))).head? <;> simp

theorem read_eq_unknownWord_iff {u : UnknownWord} :
    (lex.read threshold text).value = .error (.unknownWord u) ↔
      ∃ w, (lex.unlisted (p.toTree (.of text.toList))).head? = some w ∧
        { word := w.text, span := w.span } = u := by
  rw [value_read_of_ofText hp]
  cases (lex.unlisted (p.toTree (.of text.toList))).head? <;> simp

theorem read_ne_ungrammatical (e : SyntaxError) :
    (lex.read threshold text).value ≠ .error (.ungrammatical e) := by
  rw [value_read_of_ofText hp]
  cases (lex.unlisted (p.toTree (.of text.toList))).head? <;> simp

end Outcome

/-- **A larger lexicon accepts more texts, and refuses the others no earlier.** Lexicons that list
the same words of letters read alike. -/
theorem read_covered {lex lex' : Lexicon} (h : lex.CoveredBy lex') (threshold threshold' : Level)
    (text : String) :
    (∀ t, (lex.read threshold text).value = .ok t → (lex'.read threshold' text).value = .ok t) ∧
    (∀ u', (lex'.read threshold' text).value = .error (.unknownWord u') →
      ∃ u, (lex.read threshold text).value = .error (.unknownWord u) ∧ u.span.1 ≤ u'.span.1) ∧
    (∀ e, (lex.read threshold text).value = .error (.ungrammatical e) ↔
      (lex'.read threshold' text).value = .error (.ungrammatical e)) ∧
    (lex'.CoveredBy lex → (lex.read threshold text).value = (lex'.read threshold' text).value) := by
  cases ht : Tree.ofText text with
  | error e =>
    -- the error of the text is the outcome with every lexicon
    have hread : ∀ (lex : Lexicon) (threshold : Level),
        (lex.read threshold text).value = .error (.ungrammatical e) := by
      intro lex threshold
      rw [value_read, ht]
    rw [hread, hread]
    simp
  | ok t =>
    obtain ⟨p, hp, rfl⟩ := Tree.ofText_eq_ok_iff.mp ht
    obtain ⟨hlaid, -⟩ := Passage.laidOut_of_ofText hp
    refine ⟨?_, ?_, ?_, ?_⟩
    · intro t ht
      obtain ⟨hnone, ht⟩ := (read_eq_ok_iff hp).mp ht
      refine (read_eq_ok_iff hp).mpr ⟨?_, ht⟩
      rw [Option.eq_none_iff_forall_ne_some]
      intro n hn
      obtain ⟨m, hm, -⟩ := h.exists_head?_unlisted hlaid hn
      rw [hnone] at hm
      cases hm
    · intro u' hu'
      obtain ⟨n, hn, rfl⟩ := (read_eq_unknownWord_iff hp).mp hu'
      obtain ⟨m, hm, hle⟩ := h.exists_head?_unlisted hlaid hn
      exact ⟨_, (read_eq_unknownWord_iff hp).mpr ⟨m, hm, rfl⟩, hle⟩
    · intro e
      exact iff_of_false (read_ne_ungrammatical hp e) (read_ne_ungrammatical hp e)
    · intro h'
      rw [value_read_of_ofText hp, value_read_of_ofText hp, h.unlisted_eq h' hlaid]

/-- A lexicon that lists a word elsewhere, another word, and an entry that no text has. -/
theorem read_covered_moved_word :
    let lex : Lexicon := { cmavo := .ofList ["mi", "1"], rafsi := .ofList ["kla"] }
    let lex' : Lexicon := { cmavo := .ofList ["do"], gismu := .ofList ["mi"] }
    lex.CoveredBy lex' ∧
      (lex'.read Level.debug "mi .i do kla").value =
        .error (.unknownWord { word := "kla", span := (9, 12) }) ∧
      ∃ u, (lex.read Level.debug "mi .i do kla").value = .error (.unknownWord u) ∧
        u.span.1 ≤ 9 := by
  intro lex lex'
  have h : lex.CoveredBy lex' := by
    intro word hword hlists
    have hmi : word = "mi" ∨ word = "1" := by
      simpa [Lists, lex, Std.TreeSet.mem_ofList] using hlists
    rcases hmi with rfl | rfl
    · right
      simp [lex']
    · exact absurd (hword.2 '1' (by simp)) (by decide)
  have hread : (lex'.read Level.debug "mi .i do kla").value =
      .error (.unknownWord { word := "kla", span := (9, 12) }) := by
    cbv
  exact ⟨h, hread, (read_covered h Level.debug Level.debug "mi .i do kla").2.1 _ hread⟩

end Lexicon

end Lojban
