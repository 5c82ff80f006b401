import Mathlib.Data.List.TakeWhile
import Mathlib.Tactic
import Lojban.Token

/-!
# The tokens of a text

`Scans i cs ts` says, without the scanner, which tokens `ts` a text `cs` has whose first character
has the index `i`: words are taken as long as possible, gaps are passed over, and the first
character that starts no token is the last token.

Main results:

* `scans_iff`: `Token.scan` finds exactly these tokens.
* `Scans.append`: a text put together from two has the tokens of both, unless a word runs over the
  seam.
* `Scans.split`: a text is cut where one of its tokens starts.
-/

namespace Lojban

/-! ## Gaps and words -/

/-- The characters that gaps are made of. -/
def gapChars : List Char := [' ', '\t', '\x0c', '\r', '\n']

/-- The characters that words are made of. -/
def letterChars : List Char :=
  ['a', 'b', 'c', 'd', 'e', 'f', 'g', 'h', 'i', 'j', 'k', 'l', 'm', 'n', 'o', 'p', 'q', 'r', 's',
    't', 'u', 'v', 'w', 'x', 'y', 'z', '\'']

/-- A gap, which may be empty. -/
def IsGap (cs : List Char) : Prop := ∀ c ∈ cs, c ∈ gapChars

/-- One letter or more. -/
def IsWord (cs : List Char) : Prop := cs ≠ [] ∧ ∀ c ∈ cs, c ∈ letterChars

/-- No word goes on with `cs`. -/
def EndsWord (cs : List Char) : Prop := ∀ c ∈ cs.head?, c ∉ letterChars

namespace Token

theorem isGap_iff (c : Char) : isGap c = true ↔ c ∈ gapChars := by
  simp [isGap, gapChars, or_assoc]

theorem isLetter_iff (c : Char) : isLetter c = true ↔ c ∈ letterChars := by
  constructor
  · intro h
    simp only [isLetter, Bool.or_eq_true, Bool.and_eq_true, decide_eq_true_eq, beq_iff_eq] at h
    rcases h with ⟨h1, h2⟩ | rfl
    · have l1 : 97 ≤ c.toNat := h1
      have l2 : c.toNat ≤ 122 := h2
      rw [← Char.ofNat_toNat c]
      generalize c.toNat = n at l1 l2
      interval_cases n <;> decide
    · decide
  · intro h
    have all : ∀ d ∈ letterChars, isLetter d = true := by simp [letterChars, isLetter]
    exact all c h

theorem isGap_of_mem {c : Char} (h : c ∈ gapChars) : isGap c = true := (isGap_iff c).mpr h

theorem isLetter_of_mem {c : Char} (h : c ∈ letterChars) : isLetter c = true :=
  (isLetter_iff c).mpr h

theorem isGap_eq_false {c : Char} (h : c ∉ gapChars) : isGap c = false := by
  rw [← Bool.not_eq_true, isGap_iff]; exact h

theorem isLetter_eq_false {c : Char} (h : c ∉ letterChars) : isLetter c = false := by
  rw [← Bool.not_eq_true, isLetter_iff]; exact h

end Token

/-- No letter is part of a gap. -/
theorem not_mem_gapChars {c : Char} (h : c ∈ letterChars) : c ∉ gapChars := by
  have all : ∀ d ∈ gapChars, d ∉ letterChars := by simp [gapChars, letterChars]
  exact fun hc => all c hc h

theorem IsGap.append {g h : List Char} (hg : IsGap g) (hh : IsGap h) : IsGap (g ++ h) := by
  intro c hc
  rcases List.mem_append.mp hc with hc | hc
  · exact hg c hc
  · exact hh c hc

theorem IsGap.of_cons {c : Char} {g : List Char} (h : IsGap (c :: g)) : IsGap g :=
  fun d hd => h d (List.mem_cons_of_mem c hd)

/-- A gap that is not empty ends a word. -/
theorem IsGap.endsWord {g : List Char} (hg : IsGap g) (hne : g ≠ []) (cs : List Char) :
    EndsWord (g ++ cs) := by
  obtain ⟨c, g, rfl⟩ := List.exists_cons_of_ne_nil hne
  intro d hd
  rw [List.cons_append, List.head?_cons, Option.mem_some_iff] at hd
  subst hd
  exact fun hl => not_mem_gapChars hl (hg c (List.mem_cons_self ..))

theorem endsWord_nil : EndsWord [] := by
  intro c hc; cases hc

theorem IsGap.endsWord_self {g : List Char} (hg : IsGap g) : EndsWord g := by
  cases g with
  | nil => exact endsWord_nil
  | cons c g => simpa using hg.endsWord (List.cons_ne_nil c g) []

theorem endsWord_cons {c : Char} {cs : List Char} : EndsWord (c :: cs) ↔ c ∉ letterChars := by
  simp [EndsWord]

theorem endsWord_dot (cs : List Char) : EndsWord ('.' :: cs) := by
  rw [endsWord_cons]
  decide

/-- What a word goes on with is no gap. -/
theorem IsWord.not_endsWord {w : List Char} (hw : IsWord w) (cs : List Char) :
    ¬ EndsWord (w ++ cs) := by
  obtain ⟨c, w, rfl⟩ := List.exists_cons_of_ne_nil hw.1
  rw [List.cons_append, endsWord_cons]
  exact fun h => h (hw.2 c (List.mem_cons_self ..))

/-! ## Tokens where they lie -/

/-- The tokens `ts` of a text whose first character has the index `i`. -/
inductive Scans : ℕ → List Char → List Token → Prop
  | done {i : ℕ} {g : List Char} (hg : IsGap g) : Scans i g []
  | word {i : ℕ} {g w cs : List Char} {ts : List Token} (hg : IsGap g) (hw : IsWord w)
      (hcs : EndsWord cs) (h : Scans (i + g.length + w.length) cs ts) :
      Scans i (g ++ (w ++ cs)) (.word ⟨i + g.length, w⟩ :: ts)
  | mark {i : ℕ} {g cs : List Char} {ts : List Token} (hg : IsGap g)
      (h : Scans (i + g.length + 2) cs ts) :
      Scans i (g ++ '.' :: 'i' :: cs) (.mark (i + g.length) :: ts)
  | stray {i : ℕ} {g cs : List Char} {c : Char} (hg : IsGap g) (hc : c ∉ gapChars)
      (hl : c ∉ letterChars) (hi : c = '.' → cs.head? ≠ some 'i') :
      Scans i (g ++ c :: cs) [.stray (i + g.length) c]

namespace Token

theorem scan_gap {g : List Char} (hg : IsGap g) (i : ℕ) (cs : List Char) :
    scan i (g ++ cs) = scan (i + g.length) cs := by
  induction g generalizing i with
  | nil => simp
  | cons c g ih =>
    have hc : isGap c = true := isGap_of_mem (hg c (List.mem_cons_self ..))
    rw [List.cons_append, scan, if_pos hc, ih hg.of_cons, List.length_cons]
    congr 1
    omega

theorem takeWhile_isLetter {w cs : List Char} (hw : ∀ c ∈ w, c ∈ letterChars)
    (hcs : EndsWord cs) :
    (w ++ cs).takeWhile isLetter = w ∧ (w ++ cs).dropWhile isLetter = cs := by
  have hw' : ∀ c ∈ w, isLetter c = true := fun c hc => isLetter_of_mem (hw c hc)
  rw [List.takeWhile_append_of_pos hw', List.dropWhile_append_of_pos hw']
  cases cs with
  | nil => simp
  | cons c cs =>
    have hc := isLetter_eq_false (endsWord_cons.mp hcs)
    simp [hc]

theorem scan_word {w cs : List Char} (hw : IsWord w) (hcs : EndsWord cs) (i : ℕ) :
    scan i (w ++ cs) = .word ⟨i, w⟩ :: scan (i + w.length) cs := by
  obtain ⟨hne, hall⟩ := hw
  obtain ⟨c, w, rfl⟩ := List.exists_cons_of_ne_nil hne
  have hc := hall c (List.mem_cons_self ..)
  obtain ⟨htake, hdrop⟩ := takeWhile_isLetter (fun d hd => hall d (List.mem_cons_of_mem c hd)) hcs
  rw [List.cons_append, scan, if_neg (by simp [isGap_eq_false (not_mem_gapChars hc)]),
    if_pos (isLetter_of_mem hc)]
  simp only [htake, hdrop, List.length_cons]
  rw [show i + 1 + w.length = i + (w.length + 1) by omega]

theorem scan_mark (i : ℕ) (cs : List Char) :
    scan i ('.' :: 'i' :: cs) = .mark i :: scan (i + 2) cs := by
  rw [scan, if_neg (by decide), if_neg (by decide), if_pos (by simp)]
  rfl

theorem scan_stray {c : Char} {cs : List Char} (hc : c ∉ gapChars) (hl : c ∉ letterChars)
    (hi : c = '.' → cs.head? ≠ some 'i') (i : ℕ) : scan i (c :: cs) = [.stray i c] := by
  rw [scan, if_neg (by simp [isGap_eq_false hc]), if_neg (by simp [isLetter_eq_false hl]),
    if_neg (fun h => hi h.1 h.2)]

end Token

namespace Scans

theorem scan_eq {i : ℕ} {cs : List Char} {ts : List Token} (h : Scans i cs ts) :
    Token.scan i cs = ts := by
  induction h with
  | @done i g hg =>
    rw [← List.append_nil g, Token.scan_gap hg, Token.scan]
  | word hg hw hcs _ ih => rw [Token.scan_gap hg, Token.scan_word hw hcs, ih]
  | mark hg _ ih => rw [Token.scan_gap hg, Token.scan_mark, ih]
  | stray hg hc hl hi => rw [Token.scan_gap hg, Token.scan_stray hc hl hi]

/-- A gap in front of a text moves its tokens. -/
theorem gap_append {i : ℕ} {g cs : List Char} {ts : List Token} (hg : IsGap g)
    (h : Scans (i + g.length) cs ts) : Scans i (g ++ cs) ts := by
  cases h with
  | done hg' => exact .done (hg.append hg')
  | @word _ g' w cs ts hg' hw hcs h =>
    have := Scans.word (i := i) (hg.append hg') hw hcs
      (by rw [List.length_append, ← Nat.add_assoc]; exact h)
    rwa [List.length_append, ← Nat.add_assoc, List.append_assoc] at this
  | @mark _ g' cs ts hg' h =>
    have := Scans.mark (i := i) (hg.append hg')
      (by rw [List.length_append, ← Nat.add_assoc]; exact h)
    rwa [List.length_append, ← Nat.add_assoc, List.append_assoc] at this
  | @stray _ g' cs c hg' hc hl hi =>
    have := Scans.stray (i := i) (hg.append hg') hc hl hi
    rwa [List.length_append, ← Nat.add_assoc, List.append_assoc] at this

/-- A gap character in front of a text moves its tokens. -/
theorem gapChar_cons {i : ℕ} {c : Char} {cs : List Char} {ts : List Token} (hc : c ∈ gapChars)
    (h : Scans (i + 1) cs ts) : Scans i (c :: cs) ts :=
  gap_append (g := [c]) (by simpa [IsGap] using hc) h

end Scans

namespace Token

theorem scans_scan (i : ℕ) (cs : List Char) : Scans i cs (scan i cs) := by
  induction i, cs using scan.induct with
  | case1 i => rw [scan]; exact .done (by simp [IsGap])
  | case2 i c cs hgap ih =>
    rw [scan, if_pos hgap]
    exact Scans.gapChar_cons ((isGap_iff c).mp hgap) ih
  | case3 i c cs hgap hletter more ih =>
    rw [scan, if_neg hgap, if_pos hletter]
    have hw : IsWord (c :: more) := by
      refine ⟨by simp, fun d hd => ?_⟩
      rcases List.mem_cons.mp hd with rfl | hd
      · exact (isLetter_iff d).mp hletter
      · exact (isLetter_iff d).mp (List.mem_takeWhile_imp hd)
    have hcs : EndsWord (cs.dropWhile isLetter) := by
      intro d hd hl
      have := List.head?_dropWhile_not isLetter cs
      rw [Option.mem_def.mp hd] at this
      simp [isLetter_of_mem hl] at this
    have hlen : i + ([] : List Char).length + (c :: more).length = i + 1 + more.length := by
      simp only [List.length_nil, List.length_cons]
      omega
    have := Scans.word (i := i) (g := []) (by simp [IsGap]) hw hcs (by rw [hlen]; exact ih)
    simpa [more] using this
  | case4 i c cs hgap hletter hmark ih =>
    obtain ⟨rfl, hi⟩ := hmark
    obtain ⟨cs, rfl⟩ : ∃ ds, cs = 'i' :: ds := by
      cases cs with
      | nil => cases hi
      | cons d ds => exact ⟨ds, by simpa using hi⟩
    rw [scan_mark]
    exact Scans.mark (g := []) (by simp [IsGap]) (by simpa using ih)
  | case5 i c cs hgap hletter hmark =>
    rw [scan, if_neg hgap, if_neg hletter, if_neg hmark]
    exact Scans.stray (g := []) (by simp [IsGap]) (fun h => hgap (isGap_of_mem h))
      (fun h => hletter (isLetter_of_mem h)) (fun h hi => hmark ⟨h, hi⟩)

end Token

/-- The scanner finds the tokens of a text, and no other list of tokens describes it. -/
theorem scans_iff {i : ℕ} {cs : List Char} {ts : List Token} :
    Scans i cs ts ↔ Token.scan i cs = ts :=
  ⟨Scans.scan_eq, fun h => h ▸ Token.scans_scan i cs⟩

/-! ## Putting texts together and taking them apart -/

/-- The index of a token's first character. -/
def Token.start : Token → ℕ
  | .word w => w.start
  | .mark i => i
  | .stray i _ => i

theorem EndsWord.append {cs ds : List Char} (hcs : EndsWord cs) (hds : cs = [] → EndsWord ds) :
    EndsWord (cs ++ ds) := by
  cases cs with
  | nil => exact hds rfl
  | cons c cs => exact endsWord_cons.mpr (endsWord_cons.mp hcs)

/-- No word runs over the end of a text with the tokens `ts` into a text `cs` behind it. -/
def SeamHolds (ts : List Token) (cs : List Char) : Prop :=
  EndsWord cs ∨ ∀ w, ts.getLast? ≠ some (.word w)

theorem SeamHolds.tail {t : Token} {ts : List Token} {cs : List Char} (h : SeamHolds (t :: ts) cs) :
    SeamHolds ts cs := by
  rcases h with h | h
  · exact .inl h
  · right
    intro w
    cases ts with
    | nil => simp
    | cons u ts => rw [← List.getLast?_cons_cons]; exact h w

namespace Scans

theorem eq_nil {i : ℕ} {ts : List Token} (h : Scans i [] ts) : ts = [] := by
  rw [← h.scan_eq, Token.scan]

/-- A text put together from two has the tokens of both. -/
theorem append {i : ℕ} {cs ds : List Char} {ts us : List Token} (h : Scans i cs ts)
    (hstray : ∀ j c, Token.stray j c ∉ ts) (hseam : SeamHolds ts ds)
    (hds : Scans (i + cs.length) ds us) : Scans i (cs ++ ds) (ts ++ us) := by
  induction h with
  | done hg => exact gap_append hg hds
  | @word i g w cs ts hg hw hcs h ih =>
    -- behind the last token of the text the seam takes the place of the text's end
    have hend : EndsWord (cs ++ ds) := by
      refine hcs.append fun hnil => ?_
      subst hnil
      rw [h.eq_nil] at hseam
      exact hseam.resolve_right fun hn => hn _ rfl
    have hlen : i + (g ++ (w ++ cs)).length = i + g.length + w.length + cs.length := by
      simp only [List.length_append]
      omega
    rw [hlen] at hds
    have := Scans.word hg hw hend
      (ih (fun j c hc => hstray j c (List.mem_cons_of_mem _ hc)) hseam.tail hds)
    simpa using this
  | @mark i g cs ts hg h ih =>
    have hlen : i + (g ++ '.' :: 'i' :: cs).length = i + g.length + 2 + cs.length := by
      simp only [List.length_append, List.length_cons]
      omega
    rw [hlen] at hds
    have := Scans.mark hg
      (ih (fun j c hc => hstray j c (List.mem_cons_of_mem _ hc)) hseam.tail hds)
    simpa using this
  | stray => exact absurd (List.mem_cons_self ..) (hstray _ _)

/-- A text with a stray character has the same tokens in every text that goes on with it, unless the
next character completes a mark or a word. -/
theorem append_of_stray {i : ℕ} {cs ds : List Char} {ts : List Token} (h : Scans i cs ts)
    (hstray : ∃ j c, Token.stray j c ∈ ts) (hword : EndsWord ds) (hmark : ds.head? ≠ some 'i') :
    Scans i (cs ++ ds) ts := by
  induction h with
  | done =>
    obtain ⟨j, c, hmem⟩ := hstray
    exact absurd hmem List.not_mem_nil
  | @word i g w cs ts hg hw hcs _ ih =>
    have htail : ∃ j c, Token.stray j c ∈ ts := by simpa using hstray
    have := Scans.word hg hw (hcs.append fun _ => hword) (ih htail)
    simpa using this
  | @mark i g cs ts hg _ ih =>
    have htail : ∃ j c, Token.stray j c ∈ ts := by simpa using hstray
    have := Scans.mark hg (ih htail)
    simpa using this
  | @stray i g cs c hg hc hl hi =>
    have hnext : c = '.' → (cs ++ ds).head? ≠ some 'i' := by
      intro hdot
      cases cs with
      | nil => exact hmark
      | cons d cs => exact hi hdot
    have := Scans.stray (i := i) hg hc hl hnext
    simpa using this

/-- A gap behind a text holds no tokens. -/
theorem append_gap {i : ℕ} {cs g : List Char} {ts : List Token} (h : Scans i cs ts)
    (hg : IsGap g) : Scans i (cs ++ g) ts := by
  by_cases hstray : ∃ j c, Token.stray j c ∈ ts
  · refine h.append_of_stray hstray hg.endsWord_self ?_
    intro hi
    exact absurd (hg 'i' (List.mem_of_mem_head? hi)) (by simp [gapChars])
  · simp only [not_exists] at hstray
    have := h.append hstray (.inl hg.endsWord_self) (.done hg)
    rwa [List.append_nil] at this

/-- A text is cut in front of one of its tokens. -/
theorem split {i : ℕ} {cs : List Char} {ts : List Token} {t : Token} {us : List Token}
    (h : Scans i cs (ts ++ t :: us)) :
    ∃ ds es, cs = ds ++ es ∧ Scans i ds ts ∧ Scans t.start es (t :: us) ∧
      t.start = i + ds.length := by
  induction ts generalizing i cs with
  | nil =>
    rw [List.nil_append] at h
    have hnil : IsGap [] := by simp [IsGap]
    cases h with
    | @word _ g w cs _ hg hw hcs h =>
      exact ⟨g, w ++ cs, rfl, .done hg, .word hnil hw hcs h, rfl⟩
    | @mark _ g cs _ hg h =>
      exact ⟨g, '.' :: 'i' :: cs, rfl, .done hg, .mark hnil h, rfl⟩
    | @stray _ g cs c hg hc hl hi =>
      exact ⟨g, c :: cs, rfl, .done hg, .stray hnil hc hl hi, rfl⟩
  | cons u ts ih =>
    rw [List.cons_append] at h
    generalize hts : ts ++ t :: us = vs at h
    cases h with
    | @word _ g w cs _ hg hw hcs h =>
      subst hts
      obtain ⟨ds, es, rfl, hds, hes, hstart⟩ := ih h
      have hend : EndsWord ds := by
        cases ds with
        | nil => exact endsWord_nil
        | cons d ds => exact endsWord_cons.mpr (endsWord_cons.mp hcs)
      refine ⟨g ++ (w ++ ds), es, by simp, .word hg hw hend hds, hes, ?_⟩
      simp only [hstart, List.length_append]
      omega
    | @mark _ g cs _ hg h =>
      subst hts
      obtain ⟨ds, es, rfl, hds, hes, hstart⟩ := ih h
      refine ⟨g ++ '.' :: 'i' :: ds, es, by simp, .mark hg hds, hes, ?_⟩
      simp only [hstart, List.length_append, List.length_cons]
      omega
    | stray => simp at hts

/-- A text whose first token is a mark at its start. -/
theorem eq_mark_cons {i : ℕ} {cs : List Char} {ts : List Token} (h : Scans i cs (.mark i :: ts)) :
    ∃ ds, cs = '.' :: 'i' :: ds ∧ Scans (i + 2) ds ts := by
  generalize hj : i = j at h
  nth_rewrite 1 [← hj] at h
  cases h with
  | @mark _ g ds _ hg h =>
    obtain rfl : g = [] := List.length_eq_zero_iff.mp (by omega)
    exact ⟨ds, rfl, hj ▸ h⟩

/-- A text whose first token is a stray character at its start. -/
theorem eq_stray_cons {i : ℕ} {cs : List Char} {c : Char} {ts : List Token}
    (h : Scans i cs (.stray i c :: ts)) :
    ∃ ds, cs = c :: ds ∧ c ∉ gapChars ∧ c ∉ letterChars ∧ (c = '.' → ds.head? ≠ some 'i') := by
  generalize hj : i = j at h
  nth_rewrite 1 [← hj] at h
  cases h with
  | @stray _ g ds _ hg hc hl hi =>
    obtain rfl : g = [] := List.length_eq_zero_iff.mp (by omega)
    exact ⟨ds, rfl, hc, hl, hi⟩

end Scans

end Lojban
