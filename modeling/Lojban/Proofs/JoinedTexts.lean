import Lojban.Proofs.EarliestFault
import Lojban.Proofs.Shift

/-!
# Two texts joined by a mark

A text that is put together from two with a mark in between has a tree exactly when both texts have
one. The seams make no difference: the full stop of the mark ends every word, and no character in
front of it can turn it into anything else; behind the mark everything is read as at the start of a
text.

Main result: `ofText_append_mark`. The sentences of the whole text are those of the first text and
then those of the second, further on by the bytes of the first and of the mark.
-/

namespace Lojban

open Text Utf8

/-! ## Scanning -/

/-- The tokens of a text with a mark in it, if those in front of the mark fit. -/
theorem Token.scan_append_mark {a b : List Char} (h : ∀ j c, Token.stray j c ∉ scan 0 a) :
    scan 0 (a ++ '.' :: 'i' :: b) = scan 0 a ++ .mark a.length :: scan (a.length + 2) b := by
  have hmark : Scans (0 + a.length) ('.' :: 'i' :: b)
      (.mark (0 + a.length) :: scan (0 + a.length + 2) b) :=
    Scans.mark (g := []) (by simp [IsGap]) (scans_scan _ b)
  rw [Nat.zero_add] at hmark
  exact ((scans_scan 0 a).append h (.inl (endsWord_dot _)) (by rwa [Nat.zero_add])).scan_eq

/-! ## Reading -/

namespace Passage

/-- The sentences of one passage and then those of another. -/
def append (p q : Passage) : Passage :=
  ⟨p.first, p.more ++ q.sentences⟩

theorem sentences_append (p q : Passage) : (p.append q).sentences = p.sentences ++ q.sentences :=
  rfl

/-- The outcome `z` joins `x` and `y`: it is a passage exactly if both are, and then the sentences of
the one and then of the other. -/
def Joins (x y z : Except Fault Passage) : Prop :=
  ∀ r, z = .ok r ↔ ∃ p q, x = .ok p ∧ y = .ok q ∧ p.append q = r

theorem map_eq_ok_iff {x : Except Fault Passage} {f : Passage → Passage} {r : Passage} :
    x.map f = .ok r ↔ ∃ p, x = .ok p ∧ f p = r := by
  cases x <;> simp [Except.map]

namespace Joins

/-- What is put in front of the first passage is put in front of all sentences. -/
theorem map {x y z : Except Fault Passage} (h : Joins x y z) {f : Passage → Passage}
    (hf : ∀ p q, (f p).append q = f (p.append q)) : Joins (x.map f) y (z.map f) := by
  intro r
  constructor
  · intro hr
    obtain ⟨r, hz, rfl⟩ := map_eq_ok_iff.mp hr
    obtain ⟨p, q, hx, hy, rfl⟩ := (h r).mp hz
    exact ⟨f p, q, map_eq_ok_iff.mpr ⟨p, hx, rfl⟩, hy, hf p q⟩
  · rintro ⟨p', q, hp', hy, rfl⟩
    obtain ⟨p, hx, rfl⟩ := map_eq_ok_iff.mp hp'
    have hz := (h (p.append q)).mpr ⟨p, q, hx, hy, rfl⟩
    exact map_eq_ok_iff.mpr ⟨p.append q, hz, (hf p q).symm⟩

/-- Nothing joins what is no passage. -/
theorem of_ne_ok {x y z : Except Fault Passage} (hx : ∀ p, x ≠ .ok p) (hz : ∀ r, z ≠ .ok r) :
    Joins x y z := by
  intro r
  simp [hx, hz]

end Joins

/-- Both places of the reader, by induction on the tokens in front of the mark. -/
theorem joins_append_mark_aux (ts us : List Token) (i : ℕ) :
    (∀ before, Joins (ofTokensFrom before ts) (ofTokensFrom (.mark i) us)
      (ofTokensFrom before (ts ++ .mark i :: us))) ∧
    ∀ w, Joins (ofTokensBehind w ts) (ofTokensFrom (.mark i) us)
      (ofTokensBehind w (ts ++ .mark i :: us)) := by
  induction ts with
  | nil =>
    constructor
    · intro before
      apply Joins.of_ne_ok <;> simp [ofTokensFrom]
    · intro w r
      show (ofTokensFrom (.mark i) us).map (consSentence w) = .ok r ↔ _
      rw [map_eq_ok_iff]
      simp [ofTokensBehind, append, consSentence]
  | cons t ts ih =>
    obtain ⟨hfrom, hbehind⟩ := ih
    constructor
    · intro before
      cases t with
      | word w => exact hbehind w
      | mark j => apply Joins.of_ne_ok <;> simp [ofTokensFrom]
      | stray j c => apply Joins.of_ne_ok <;> simp [ofTokensFrom]
    · intro w
      cases t with
      | word v => exact (hbehind v).map fun p q => rfl
      | mark j => exact (hfrom (.mark j)).map fun p q => rfl
      | stray j c => apply Joins.of_ne_ok <;> simp [ofTokensBehind]

/-- Where a word has to come, the passage that is read does not depend on what was read before. -/
theorem ofTokensFrom_eq_ok_iff {before : Before} {ts : List Token} {p : Passage} :
    ofTokensFrom before ts = .ok p ↔ ofTokens ts = .ok p := by
  unfold ofTokens
  cases ts with
  | nil => simp [ofTokensFrom]
  | cons t ts => cases t <;> simp [ofTokensFrom]

theorem joins_append_mark (ts us : List Token) (i : ℕ) :
    Joins (ofTokens ts) (ofTokens us) (ofTokens (ts ++ .mark i :: us)) := by
  intro r
  have h := (joins_append_mark_aux ts us i).1 .start r
  simpa only [ofTokensFrom_eq_ok_iff] using h

/-- Tokens that are read as a passage hold no stray character. -/
theorem stray_not_mem_of_ofTokens {ts : List Token} {p : Passage} (h : ofTokens ts = .ok p)
    (i : ℕ) (c : Char) : Token.stray i c ∉ ts := by
  have hverdict := ofTokens_ok_iff.mp ⟨p, h⟩
  unfold Before.verdict at hverdict
  cases hrun : Before.start.run ts with
  | error f => rw [hrun] at hverdict; cases hverdict
  | ok last => exact Before.stray_not_mem hrun i c

/-- A text that lies further on is read as the passage that lies further on. -/
theorem ofTokens_scan_add (k : ℕ) (text : List Char) {q : Passage} :
    ofTokens (Token.scan k text) = .ok q ↔ ∃ p, ofText text = .ok p ∧ p.shift k = q := by
  have hscan := Token.scan_add 0 k text
  have hread := ofTokensFrom_shift k .start (Token.scan 0 text)
  rw [Nat.zero_add] at hscan
  rw [← hscan] at hread
  change ofTokens (Token.scan k text) = ((ofText text).map _).mapError _ at hread
  rw [hread]
  cases ofText text <;> simp [Except.map, Except.mapError]

/-- A text with a mark in it is read as the texts on either side. -/
theorem ofText_append_mark_eq_ok_iff {a b : List Char} {r : Passage} :
    ofText (a ++ '.' :: 'i' :: b) = .ok r ↔
      ∃ p q, ofText a = .ok p ∧ ofText b = .ok q ∧ p.append (q.shift (a.length + 2)) = r := by
  by_cases hstray : ∃ j c, Token.stray j c ∈ Token.scan 0 a
  · -- nothing behind a stray character is read
    have hscan := ((Token.scans_scan 0 a).append_of_stray hstray (endsWord_dot ('i' :: b))
      (by simp)).scan_eq
    obtain ⟨j, c, hmem⟩ := hstray
    constructor
    · intro hr
      unfold ofText at hr
      rw [hscan] at hr
      exact absurd hmem (stray_not_mem_of_ofTokens hr j c)
    · rintro ⟨p, q, hp, -, -⟩
      exact absurd hmem (stray_not_mem_of_ofTokens hp j c)
  · simp only [not_exists] at hstray
    have hjoins := joins_append_mark (Token.scan 0 a) (Token.scan (a.length + 2) b) a.length r
    rw [← Token.scan_append_mark hstray] at hjoins
    refine hjoins.trans ?_
    simp only [ofTokens_scan_add (a.length + 2) b]
    constructor
    · rintro ⟨p, _, hp, ⟨q, hq, rfl⟩, rfl⟩
      exact ⟨p, q, hp, hq, rfl⟩
    · rintro ⟨p, q, hp, hq, rfl⟩
      exact ⟨p, _, hp, ⟨q, hq, rfl⟩, rfl⟩

end Passage

/-! ## Trees -/

/-- The trees of the sentences of a text where another text follows. -/
theorem Passage.LaidOut.map_toTree_append {text : String} {p : Passage} (h : p.LaidOut text.toList)
    (post : List Char) :
    p.sentences.map (Sentence.toTree (.of (text.toList ++ post))) =
      p.sentences.map (Sentence.toTree (.of text.toList)) := by
  apply List.map_congr_left
  intro s hs
  have hshift := h.toTree_shift [] post hs
  simpa [byteLength] using hshift

/-- **A text with a mark in it has a tree exactly when the texts on either side have one,** and its
sentences are theirs, the latter further on by the bytes of the first text and of the mark. -/
theorem Tree.ofText_append_mark (a b : String) :
    (Grammatical (a ++ ".i" ++ b) ↔ Grammatical a ∧ Grammatical b) ∧
    ∀ t, Tree.ofText (a ++ ".i" ++ b) = .ok t →
      ∃ s u, Tree.ofText a = .ok s ∧ Tree.ofText b = .ok u ∧
        t.children = s.children ++ u.children.map (Tree.shift (byteLength a.toList + 2 : ℕ)) := by
  have htext : (a ++ ".i" ++ b).toList = a.toList ++ '.' :: 'i' :: b.toList := by simp
  constructor
  · simp only [grammatical_iff_ofText, htext, Passage.ofText_append_mark_eq_ok_iff]
    constructor
    · rintro ⟨_, p, q, hp, hq, -⟩
      exact ⟨⟨p, hp⟩, ⟨q, hq⟩⟩
    · rintro ⟨⟨p, hp⟩, ⟨q, hq⟩⟩
      exact ⟨_, p, q, hp, hq, rfl⟩
  · intro t ht
    obtain ⟨r, hr, rfl⟩ := Tree.ofText_eq_ok_iff.mp ht
    rw [htext] at hr ⊢
    obtain ⟨p, q, hp, hq, rfl⟩ := Passage.ofText_append_mark_eq_ok_iff.mp hr
    refine ⟨_, _, Tree.ofText_eq_ok_iff.mpr ⟨p, hp, rfl⟩, Tree.ofText_eq_ok_iff.mpr ⟨q, hq, rfl⟩, ?_⟩
    have hfirst := (Passage.laidOut_of_ofText hp).1.map_toTree_append ('.' :: 'i' :: b.toList)
    have hsecond := (Passage.laidOut_of_ofText hq).1.map_toTree_shift (a.toList ++ ['.', 'i']) []
    rw [byteLength_append, List.length_append, List.append_nil, List.append_assoc] at hsecond
    show (p.append (q.shift (a.toList.length + 2))).sentences.map _ = _
    rw [Passage.sentences_append, List.map_append, hfirst]
    exact congrArg _ hsecond

end Lojban
