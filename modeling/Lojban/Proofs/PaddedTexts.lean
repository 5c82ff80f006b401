import Lojban.Proofs.ErrorPlaces
import Lojban.Proofs.Shift

/-!
# Gaps around a text

A gap in front of a text moves everything in it on, and a gap behind it changes nothing. So a text
between two gaps has the tree of the text, further on, and an error is reported further on with the
same token. Only the error of a text that is nothing but a gap stays at the start.

Main result: `Tree.ofText_between_gaps`.
-/

namespace Lojban

open Text Utf8

/-! ## Specification -/

/-- The error `e'` names the same token as `e`, which lies `k` bytes further on. -/
structure SyntaxError.MovedBy (k : ℤ) (e e' : SyntaxError) : Prop where
  token : e'.token = e.token
  position : ∃ p, e.position = some p ∧ e'.position = some (p + k)
  span : e'.span = e.span.map fun (first, stop) => (first + k, stop + k)

/-! ## Reading -/

namespace Passage

/-- A text between two gaps is read as the text, further on. -/
theorem ofText_padded {g h : List Char} (hg : IsGap g) (hh : IsGap h) (text : List Char) :
    ofText (g ++ (text ++ h)) =
      ((ofText text).map (shift g.length)).mapError (Fault.shift g.length) := by
  have hscan := ((Token.scans_scan 0 text).append_gap hh).shift g.length
  rw [ofText, (Scans.gap_append hg hscan).scan_eq]
  exact ofTokensFrom_shift g.length .start (Token.scan 0 text)

/-- A text has no tokens at all exactly if it is a gap. -/
theorem ofText_eq_missingWord_start_iff {text : List Char} :
    ofText text = .error (.missingWord .start) ↔ IsGap text := by
  constructor
  · intro h
    have hscan := Token.scans_scan 0 text
    have htokens : Token.scan 0 text = [] := by
      rcases Before.verdict_eq_error_iff.mp (ofTokens_error_iff.mp h) with
        hrun | ⟨last, hrun, hlast, heq⟩
      · obtain ⟨us, t, vs, next, -, -, hstep⟩ := Before.run_eq_error hrun
        rcases Before.step_eq_error hstep with ⟨i, -, -, hf⟩ | ⟨i, c, -, hf⟩ <;> cases hf
      · -- the last token would be a mark, behind which the place is not the start
        cases heq
        by_contra hne
        obtain ⟨us, t, next, -, -, hstep⟩ := Before.run_eq_ok hrun hne
        obtain ⟨i, -, hmark⟩ := Before.eq_mark_of_step hstep hlast
        cases hmark
    rw [htokens] at hscan
    cases hscan with
    | done hg => exact hg
  · intro hg
    rw [ofText, (Scans.done hg).scan_eq]
    rfl

end Passage

/-! ## Errors -/

theorem SyntaxError.movedBy_of_position {e e' : SyntaxError} {p k : ℤ}
    (htoken : e'.token = e.token) (hp : e.position = some p) (hp' : e'.position = some (p + k)) :
    e.MovedBy k e' := by
  refine ⟨htoken, ⟨p, hp, hp'⟩, ?_⟩
  unfold span
  rw [hp, hp', htoken]
  cases e.token with
  | none => rfl
  | some token =>
    by_cases hempty : token = ""
    · simp [hempty]
    · simp only [if_neg hempty, Option.map_some, Int.add_right_comm]

theorem IsGap.byteLength_eq {g : List Char} (hg : IsGap g) : byteLength g = g.length :=
  byteLength_of_ascii (List.all_eq_true.mpr fun c hc => isAscii_of_mem_gapChars c (hg c hc))

section Errors

variable {text : String} {padded g h : List Char} {f : Fault}

/-- In a text between two gaps, the fault of the text is reported behind the gap in front. -/
theorem Fault.Cuts.movedBy {cs ds : List Char} (hcuts : f.Cuts text.toList cs ds) (hg : IsGap g)
    (hpadded : padded = g ++ (text.toList ++ h)) (hne : f ≠ .missingWord .start) :
    (SyntaxError.ofFault text.toList f).MovedBy g.length
      (SyntaxError.ofFault padded (f.shift g.length)) := by
  have htext : padded = (g ++ cs) ++ (ds ++ h) := by
    rw [hpadded, hcuts.eq_append, List.append_assoc, List.append_assoc]
  have hstart : (f.shift g.length).start = (g ++ cs).length := by
    rw [f.start_shift g.length hne, hcuts.start_eq, List.length_append, Nat.add_comm]
  have hposition := position_ofFault htext hstart
  rw [byteLength_append, hg.byteLength_eq, hcuts.byteLength_eq, Nat.add_comm, Nat.cast_add]
    at hposition
  exact SyntaxError.movedBy_of_position (f.token?_shift g.length) hcuts.position_eq hposition

/-- The error of a text that is nothing but a gap lies at the start, and so does that of every
such text. -/
theorem SyntaxError.movedBy_missingWord (text padded : List Char) :
    (ofFault text (.missingWord .start)).position = some 0 ∧
      (ofFault text (.missingWord .start)).MovedBy 0 (ofFault padded (.missingWord .start)) := by
  have hposition : ∀ cs, (ofFault cs (.missingWord .start)).position = some 0 := by
    intro cs
    exact position_ofFault (List.nil_append cs).symm rfl
  exact ⟨hposition text, movedBy_of_position rfl (hposition text) (hposition padded)⟩

end Errors

/-- **A text between two gaps is read as the text, further on by the gap in front.** -/
theorem Tree.ofText_between_gaps {u v : String} (hu : IsGap u.toList) (hv : IsGap v.toList)
    (t : String) :
    (Grammatical (u ++ t ++ v) ↔ Grammatical t) ∧
    (∀ s, Tree.ofText t = .ok s → Tree.ofText (u ++ t ++ v) = .ok (s.shift u.length)) ∧
    ∀ e, Tree.ofText t = .error e → ∃ e', Tree.ofText (u ++ t ++ v) = .error e' ∧
      (IsGap t.toList → e.position = some 0 ∧ e.MovedBy 0 e') ∧
      (¬ IsGap t.toList → e.MovedBy u.length e') := by
  have htext : (u ++ t ++ v).toList = u.toList ++ (t.toList ++ v.toList) := by simp
  have hread := Passage.ofText_padded hu hv t.toList
  rw [← htext] at hread
  refine ⟨?_, ?_, ?_⟩
  · rw [grammatical_iff_ofText, grammatical_iff_ofText, hread]
    cases Passage.ofText t.toList <;> simp [Except.map, Except.mapError]
  · intro s hs
    obtain ⟨p, hp, rfl⟩ := Tree.ofText_eq_ok_iff.mp hs
    have htree := (Passage.laidOut_of_ofText hp).1.toTree_shift_passage u.toList v.toList
    rw [hp] at hread
    rw [← htext, hu.byteLength_eq, String.length_toList] at htree
    exact Tree.ofText_eq_ok_iff.mpr ⟨_, hread, htree.symm⟩
  · intro e he
    obtain ⟨f, hf, rfl⟩ := Tree.ofText_eq_error_iff.mp he
    obtain ⟨cs, ds, hcuts⟩ := Passage.exists_cuts hf
    rw [hf] at hread
    refine ⟨_, Tree.ofText_eq_error_iff.mpr ⟨_, hread, rfl⟩, ?_, ?_⟩
    · intro hgap
      rw [Passage.ofText_eq_missingWord_start_iff.mpr hgap] at hf
      cases hf
      exact SyntaxError.movedBy_missingWord t.toList (u ++ t ++ v).toList
    · intro hgap
      have hne : f ≠ .missingWord .start := by
        rintro rfl
        exact hgap (Passage.ofText_eq_missingWord_start_iff.mp hf)
      have hmoved := hcuts.movedBy hu htext hne
      rwa [String.length_toList] at hmoved

/-- The missing word of a text that ends with a mark, between gaps. -/
theorem padded_missing_word :
    IsGap " \n".toList ∧ IsGap "\t".toList ∧ ¬ IsGap "mi .i".toList ∧
      ∃ e e', Tree.ofText "mi .i" = .error e ∧ Tree.ofText " \nmi .i\t" = .error e' ∧
        e.MovedBy 2 e' := by
  have hu : IsGap " \n".toList := by simp [IsGap, gapChars]
  have hv : IsGap "\t".toList := by simp [IsGap, gapChars]
  have hgap : ¬ IsGap "mi .i".toList := by simp [IsGap, gapChars]
  have hf : Passage.ofText "mi .i".toList = .error (.missingWord (.mark 3)) := by cbv
  have he := Tree.ofText_eq_error_iff.mpr ⟨_, hf, rfl⟩
  obtain ⟨e', he', -, hmoved⟩ := (Tree.ofText_between_gaps hu hv "mi .i").2.2 _ he
  exact ⟨hu, hv, hgap, _, e', he, he', hmoved hgap⟩

end Lojban
