import Lojban.Proofs.EarliestFault

/-!
# Where the error of a text lies

An error says in four ways where it lies: by its position, by its line, by its column and, if it
names a token, by a span. `SyntaxError.PlacedAt text e p` says that all four mean the character with
the index `p`. They can, for nothing in front of a fault takes more than one byte a character
(`Before.Reaches.isAscii`), whatever stands behind.

Main result: `ofText_error_placed`, every error of a text has such a place.
-/

namespace Lojban

open Text Utf8

/-! ## Specification -/

/-- `line` is what stands behind the last line feed of `cs`, and all of `cs` if there is none. -/
def IsLastLine (cs line : List Char) : Prop :=
  '\n' ∉ line ∧ (cs = line ∨ ∃ before, cs = before ++ '\n' :: line)

/-- The error `e` of `text` lies at the character with the index `p`, or at the end of the text. -/
structure SyntaxError.PlacedAt (text : String) (e : SyntaxError) (p : ℕ) : Prop where
  le : p ≤ text.toList.length
  /-- Every character in front is one of ASCII. -/
  ascii : ∀ c ∈ text.toList.take p, c.toNat < 0x80
  /-- The position is the index, which is also the number of bytes in front. -/
  position : e.position = some (p : ℤ) ∧ byteLength (text.toList.take p) = p
  /-- The line is one more than there are line feeds in front. -/
  line : e.line = some (((text.toList.take p).count '\n' + 1 : ℕ) : ℤ)
  /-- The column is one more than there are characters in front in the same line. -/
  column : ∃ line, IsLastLine (text.toList.take p) line ∧
    e.column = some ((line.length + 1 : ℕ) : ℤ)
  /-- A token that the error names stands at the place, and the span is that of its bytes. -/
  token : ∀ token, e.token = some token → token.toList <+: text.toList.drop p ∧
    e.span = some ((p : ℤ), ((p + byteLength token.toList : ℕ) : ℤ)) ∧
    bytesBetween text p (p + byteLength token.toList : ℕ) = encode token.toList
  /-- An error without a token has no span. It lies at the start of a text that is nothing but a
  gap, or at a mark that has nothing but a gap behind it. -/
  noToken : e.token = none → e.span = none ∧
    (IsGap text.toList ∧ p = 0 ∨ ∃ g, IsGap g ∧ text.toList.drop p = '.' :: 'i' :: g)

/-! ## Lines -/

theorem lastLine_concat (cs : List Char) (c : Char) :
    lastLine (cs ++ [c]) = if c = '\n' then [] else lastLine cs ++ [c] := by
  unfold lastLine
  rw [List.reverse_append, List.reverse_singleton, List.singleton_append, List.takeWhile_cons]
  by_cases hc : c = '\n'
  · simp [hc]
  · simp [hc]

theorem isLastLine_lastLine (cs : List Char) : IsLastLine cs (lastLine cs) := by
  induction cs using List.reverseRecOn with
  | nil => exact ⟨List.not_mem_nil, .inl rfl⟩
  | append_singleton cs c ih =>
    obtain ⟨hmem, hcs⟩ := ih
    rw [lastLine_concat]
    split_ifs with hc
    · subst hc
      exact ⟨List.not_mem_nil, .inr ⟨cs, rfl⟩⟩
    · refine ⟨by simp [hmem, Ne.symm hc], ?_⟩
      rcases hcs with hcs | ⟨before, hcs⟩
      · left
        rw [← hcs]
      · right
        refine ⟨before, ?_⟩
        rw [← List.cons_append, ← List.append_assoc, ← hcs]

/-! ## In front of a fault -/

theorem isAscii_of_mem_gapChars : ∀ c ∈ gapChars, isAscii c = true := by
  simp [gapChars, isAscii]

theorem isAscii_of_mem_letterChars : ∀ c ∈ letterChars, isAscii c = true := by
  simp [letterChars, isAscii]

/-- Gaps, words and marks are made of characters of one byte. -/
theorem Scans.isAscii {i : ℕ} {cs : List Char} {ts : List Token} (h : Scans i cs ts)
    (hstray : ∀ j c, Token.stray j c ∉ ts) : ∀ c ∈ cs, isAscii c = true := by
  induction h with
  | done hg => exact fun c hc => isAscii_of_mem_gapChars c (hg c hc)
  | @word i g w cs ts hg hw _ _ ih =>
    intro c hc
    simp only [List.mem_append] at hc
    rcases hc with hc | hc | hc
    · exact isAscii_of_mem_gapChars c (hg c hc)
    · exact isAscii_of_mem_letterChars c (hw.2 c hc)
    · exact ih (fun j d hd => hstray j d (List.mem_cons_of_mem _ hd)) c hc
  | @mark i g cs ts hg _ ih =>
    intro c hc
    simp only [List.mem_append, List.mem_cons] at hc
    rcases hc with hc | rfl | rfl | hc
    · exact isAscii_of_mem_gapChars c (hg c hc)
    · decide
    · decide
    · exact ih (fun j d hd => hstray j d (List.mem_cons_of_mem _ hd)) c hc
  | stray => exact absurd (List.mem_cons_self ..) (hstray _ _)

theorem Before.Reaches.isAscii {cs : List Char} {ts : List Token} {last : Before}
    (h : Before.Reaches cs ts last) : ∀ c ∈ cs, Utf8.isAscii c = true :=
  h.scans.isAscii (Before.stray_not_mem h.run)

/-! ## The place of a fault -/

/-- What a fault finds behind the characters `cs`, in front of the rest `ds` of the text: the token
that it names or, without one, a text or a mark that lacks a word. -/
def Fault.Finds (f : Fault) (cs ds : List Char) : Prop :=
  match f.token? with
  | some token => token ≠ "" ∧ token.toList <+: ds
  | none => cs = [] ∧ IsGap ds ∨ ∃ g, IsGap g ∧ ds = '.' :: 'i' :: g

/-- The place of the fault is between `cs` and `ds`, which make up the text. -/
structure Fault.Cuts (f : Fault) (text cs ds : List Char) : Prop where
  eq_append : text = cs ++ ds
  start_eq : f.start = cs.length
  ascii : ∀ c ∈ cs, isAscii c = true
  finds : f.Finds cs ds

/-- A missing word is reported at the mark in front of it or, without one, at the start. -/
theorem Before.Reaches.exists_cuts {text : List Char} {ts : List Token} {last : Before}
    (h : Before.Reaches text ts last) (hlast : last.needsWord = true) :
    ∃ cs ds, (Fault.missingWord last).Cuts text cs ds := by
  obtain ⟨hscan, hrun⟩ := h
  by_cases hne : ts = []
  · subst hne
    cases hrun
    cases hscan with
    | done hg => exact ⟨[], text, rfl, rfl, by simp, .inl ⟨rfl, hg⟩⟩
  · obtain ⟨us, t, next, rfl, hus, hstep⟩ := Before.run_eq_ok hrun hne
    obtain ⟨i, rfl, rfl⟩ := Before.eq_mark_of_step hstep hlast
    obtain ⟨cs, es, rfl, hcs, hes, hstart⟩ := hscan.split
    obtain ⟨ds, rfl, hds⟩ := Scans.eq_mark_cons hes
    rw [Nat.zero_add] at hstart
    -- no token stands behind the mark
    have hg : IsGap ds := by
      cases hds with
      | done hg => exact hg
    exact ⟨cs, _, rfl, hstart, Before.Reaches.isAscii ⟨hcs, hus⟩, .inr ⟨ds, hg, rfl⟩⟩

theorem Passage.exists_cuts {text : List Char} {f : Fault}
    (h : Passage.ofText text = .error f) : ∃ cs ds, f.Cuts text cs ds := by
  rcases Before.verdict_eq_error_iff.mp (Passage.ofTokens_error_iff.mp h) with
    hrun | ⟨last, hrun, hlast, rfl⟩
  · obtain ⟨cs, c, ds, last, rfl, hstuck, hstart, more, htoken, hmore⟩ := exists_stuck hrun
    obtain ⟨ts, hreach⟩ := hstuck.reaches
    refine ⟨cs, c :: ds, rfl, hstart, hreach.isAscii, ?_⟩
    unfold Fault.Finds
    rw [htoken]
    refine ⟨by simp, ?_⟩
    rw [String.toList_ofList]
    exact List.prefix_cons_inj c |>.mpr hmore
  · exact Before.Reaches.exists_cuts ⟨Token.scans_scan 0 text, hrun⟩ hlast

/-! ## The place of an error -/

namespace Fault.Cuts

variable {text : String} {cs ds : List Char} {f : Fault} (h : f.Cuts text.toList cs ds)

include h

theorem byteLength_eq : byteLength cs = cs.length :=
  byteLength_of_ascii (List.all_eq_true.mpr h.ascii)

theorem take_eq : text.toList.take cs.length = cs := by
  rw [h.eq_append, List.take_left]

theorem drop_eq : text.toList.drop cs.length = ds := by
  rw [h.eq_append, List.drop_left]

theorem position_eq : (SyntaxError.ofFault text.toList f).position = some (cs.length : ℤ) := by
  rw [position_ofFault h.eq_append h.start_eq, h.byteLength_eq]

/-- A token that the fault names takes up the bytes of its span. -/
theorem span_eq {token : String} (htoken : f.token? = some token) :
    token.toList <+: ds ∧
      (SyntaxError.ofFault text.toList f).span =
        some ((cs.length : ℤ), ((cs.length + byteLength token.toList : ℕ) : ℤ)) ∧
      bytesBetween text cs.length (cs.length + byteLength token.toList : ℕ) =
        encode token.toList := by
  have hfinds := h.finds
  unfold Fault.Finds at hfinds
  rw [htoken] at hfinds
  obtain ⟨hne, es, rfl⟩ := hfinds
  refine ⟨List.prefix_append .., ?_, ?_⟩
  · have herror : (SyntaxError.ofFault text.toList f).token = some token := htoken
    simp only [SyntaxError.span, h.position_eq, herror, if_neg hne, ← byteLength_toList,
      Nat.cast_add]
  · have htext : encode text.toList = encode cs ++ (encode token.toList ++ encode es) := by
      rw [h.eq_append, encode_append, encode_append]
    have hcs : (encode cs).length = cs.length := h.byteLength_eq
    rw [bytesBetween_natCast]
    · exact htext ▸ hcs ▸ slice_append_middle ..
    · rw [htext, List.length_append]
      omega
    · rw [htext, List.length_append, List.length_append]
      show _ + (encode token.toList).length ≤ _
      omega

theorem placedAt : (SyntaxError.ofFault text.toList f).PlacedAt text cs.length where
  le := by
    rw [h.eq_append, List.length_append]
    omega
  ascii := by
    intro c hc
    rw [h.take_eq] at hc
    simpa [isAscii] using h.ascii c hc
  position := ⟨h.position_eq, by rw [h.take_eq, h.byteLength_eq]⟩
  line := by
    show some ((lineAt text.toList f.start : ℕ) : ℤ) = _
    rw [h.start_eq]
    rfl
  column := by
    refine ⟨lastLine (text.toList.take cs.length), isLastLine_lastLine _, ?_⟩
    show some ((columnAt text.toList f.start : ℕ) : ℤ) = _
    rw [h.start_eq]
    rfl
  token := by
    intro token htoken
    rw [h.drop_eq]
    exact h.span_eq htoken
  noToken := by
    intro hnone
    have hfinds := h.finds
    change f.token? = none at hnone
    unfold Fault.Finds at hfinds
    rw [hnone] at hfinds
    constructor
    · have herror : (SyntaxError.ofFault text.toList f).token = none := hnone
      simp only [SyntaxError.span, h.position_eq, herror]
    · rcases hfinds with ⟨rfl, hg⟩ | hmark
      · left
        rw [h.eq_append]
        exact ⟨hg, rfl⟩
      · right
        rw [h.drop_eq]
        exact hmark

end Fault.Cuts

/-- **Every error of a text has one place, which its position, line, column and span agree on.** -/
theorem ofText_error_placed {text : String} {e : SyntaxError} (he : Tree.ofText text = .error e) :
    ∃! p, e.PlacedAt text p := by
  obtain ⟨f, hf, rfl⟩ := Tree.ofText_eq_error_iff.mp he
  obtain ⟨cs, ds, hcuts⟩ := Passage.exists_cuts hf
  refine ⟨cs.length, hcuts.placedAt, ?_⟩
  intro p hp
  -- the position alone tells the index
  have hposition := hp.position.1.symm.trans hcuts.placedAt.position.1
  simpa using hposition

/-- A character of two bytes in the second line. -/
theorem placed_stray_letter :
    ∃ e, Tree.ofText "coi do\r\n\tmi é.i" = .error e ∧
      ∃! p, e.PlacedAt "coi do\r\n\tmi é.i" p := by
  have h : Passage.ofText "coi do\r\n\tmi é.i".toList =
      .error (.strayChar 12 'é' (.word ⟨9, ['m', 'i']⟩)) := by
    cbv
  have he := Tree.ofText_eq_error_iff.mpr ⟨_, h, rfl⟩
  exact ⟨_, he, ofText_error_placed he⟩

end Lojban
