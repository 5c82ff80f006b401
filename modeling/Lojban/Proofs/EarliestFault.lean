import Lojban.Proofs.ByteOffsets
import Lojban.Proofs.PassageRun
import Lojban.Proofs.PassageTree
import Lojban.Proofs.Scanning

/-!
# A fault is reported where it happens

A text that is refused at its end only lacks a word there. Any other text is refused at the first
character that rules a tree out: what stands in front of it can still be completed, and nothing that
starts with it as well can. A full stop behind a word is the one character that is only ruled out
together with the next, since a mark could start with it.

Main result: `ofText_error_earliest`.
-/

namespace Lojban

open Text Utf8

/-! ## Specification -/

/-- The text has a tree. -/
def Grammatical (text : String) : Prop :=
  ∃ t, Tree.ofText text = .ok t

/-- A text that has a tree starts with `pre`. -/
def Completable (pre : String) : Prop :=
  ∃ more, Grammatical (pre ++ more)

/-- The first `n` characters of a text. -/
def firstChars (text : String) (n : ℕ) : String :=
  String.ofList (text.toList.take n)

/-- The error `e` of `text` is reported at the character `p`, as early as can be. -/
structure SyntaxError.EarliestAt (text : String) (e : SyntaxError) (p : ℕ) : Prop where
  /-- The error names the position of the character by its bytes. -/
  position : e.position = some ((byteLength (text.toList.take p) : ℕ) : ℤ)
  /-- The token of the error starts with the character. -/
  token : ∃ c, text.toList[p]? = some c ∧ e.token.bind (·.toList.head?) = some c
  /-- What stands in front of the character is a text, or would be one with a word behind it. -/
  viable : Grammatical (firstChars text p) ∨ Grammatical (firstChars text p ++ "a")
  /-- The character rules out every text, if it is no full stop behind a word. -/
  first : ¬ (text.toList[p]? = some '.' ∧ Grammatical (firstChars text p)) →
    ¬ Completable (firstChars text (p + 1))
  /-- A full stop behind a word rules out every text together with the next character. -/
  dot : text.toList[p]? = some '.' → Grammatical (firstChars text p) →
    p + 1 < text.toList.length → ¬ Completable (firstChars text (p + 2))

/-- The error `e` of `text` is reported as early as can be: without a token where the text only
lacks a word at its end, and else at the first character that rules a tree out. -/
structure SyntaxError.Earliest (text : String) (e : SyntaxError) : Prop where
  incomplete : e.token = none ↔ Grammatical (text ++ "a")
  found : e.token ≠ none → ∃ p, e.EarliestAt text p

/-! ## Verdicts on texts -/

theorem grammatical_iff_ofText {text : String} :
    Grammatical text ↔ ∃ p, Passage.ofText text.toList = .ok p := by
  simp only [Grammatical, Tree.ofText_eq_ok_iff]
  constructor
  · rintro ⟨t, p, hp, -⟩
    exact ⟨p, hp⟩
  · rintro ⟨p, hp⟩
    exact ⟨_, p, hp, rfl⟩

theorem grammatical_iff (text : String) :
    Grammatical text ↔ Before.start.verdict (Token.scan 0 text.toList) = .ok () :=
  grammatical_iff_ofText.trans Passage.ofTokens_ok_iff

/-- Reading the text `cs` ends at `last`: its tokens `ts` fit, and more may follow. -/
structure Before.Reaches (cs : List Char) (ts : List Token) (last : Before) : Prop where
  scans : Scans 0 cs ts
  run : Before.start.run ts = .ok last

namespace Before.Reaches

variable {cs : List Char} {ts : List Token} {last : Before} (h : Reaches cs ts last)

include h

/-- Behind the text, the verdict is that on what follows. -/
theorem verdict_append {ds : List Char} (hseam : SeamHolds ts ds) :
    Before.start.verdict (Token.scan 0 (cs ++ ds)) = last.verdict (Token.scan cs.length ds) := by
  have hds := Token.scans_scan (0 + cs.length) ds
  have hscan := h.scans.append (Before.stray_not_mem h.run) hseam hds
  rw [hscan.scan_eq, Before.verdict_append h.run, Nat.zero_add]

theorem grammatical_iff {text : String} (htext : text.toList = cs) :
    Grammatical text ↔ last.needsWord = false := by
  have hverdict := h.verdict_append (.inl endsWord_nil)
  rw [List.append_nil, Token.scan] at hverdict
  rw [Lojban.grammatical_iff, htext, hverdict]
  show last.finish = .ok () ↔ _
  cases last with
  | word w => exact ⟨fun _ => rfl, fun _ => rfl⟩
  | start => exact ⟨fun h => (by cases h), fun h => (by cases h)⟩
  | mark i => exact ⟨fun h => (by cases h), fun h => (by cases h)⟩

/-- Where a word has to come, the letter `a` completes the text. -/
theorem grammatical_append_word {text : String} (htext : text.toList = cs)
    (hlast : last.needsWord = true) : Grammatical (text ++ "a") := by
  have hseam : SeamHolds ts "a".toList := .inr (Before.getLast?_ne_word h.run hlast)
  have hword : IsWord "a".toList := ⟨by simp, by simp [letterChars]⟩
  have hscan := Token.scan_word hword endsWord_nil cs.length
  rw [List.append_nil, Token.scan] at hscan
  rw [Lojban.grammatical_iff, String.toList_append, htext, h.verdict_append hseam, hscan,
    Before.verdict_cons]
  rfl

/-- A character that starts no token ends the reading. -/
theorem not_grammatical_stray {text : String} {c : Char} {ds : List Char}
    (htext : text.toList = cs ++ c :: ds) (hc : c ∉ gapChars) (hl : c ∉ letterChars)
    (hi : c = '.' → ds.head? ≠ some 'i') : ¬ Grammatical text := by
  rw [Lojban.grammatical_iff, htext, h.verdict_append (.inl (endsWord_cons.mpr hl)),
    Token.scan_stray hc hl hi, Before.verdict_cons, Before.step_stray]
  intro h
  cases h

/-- Where a word has to come, a full stop ends the reading, whether or not it starts a mark. -/
theorem not_grammatical_dot {text : String} {ds : List Char} (htext : text.toList = cs ++ '.' :: ds)
    (hlast : last.needsWord = true) : ¬ Grammatical text := by
  by_cases hi : ds.head? = some 'i'
  · obtain ⟨ds, rfl⟩ := List.head?_eq_some_iff.mp hi
    rw [Lojban.grammatical_iff, htext, h.verdict_append (.inl (endsWord_dot _)),
      Token.scan_mark, Before.verdict_cons, Before.step_mark hlast]
    intro h
    cases h
  · apply h.not_grammatical_stray htext
    · decide
    · decide
    · exact fun _ => hi

end Before.Reaches

/-! ## The character that does not fit -/

/-- Only a mark in front of a word that has to come and a stray character do not fit. -/
theorem Before.step_eq_error {before : Before} {t : Token} {f : Fault}
    (h : before.step t = .error f) :
    (∃ i, t = .mark i ∧ before.needsWord = true ∧ f = .misplacedMark i before) ∨
      ∃ i c, t = .stray i c ∧ f = .strayChar i c before := by
  cases t with
  | word w => cases before <;> cases h
  | mark i =>
    left
    cases before with
    | word w => cases h
    | start => cases h; exact ⟨i, rfl, rfl, rfl⟩
    | mark j => cases h; exact ⟨i, rfl, rfl, rfl⟩
  | stray i c =>
    rw [Before.step_stray] at h
    cases h
    exact .inr ⟨i, c, rfl, rfl⟩

/-- Behind `cs`, where the reading has reached `last`, the character `c` with `ds` behind it does
not fit: it is a full stop where a word has to come, or it starts no token. -/
structure Stuck (cs : List Char) (last : Before) (c : Char) (ds : List Char) : Prop where
  reaches : ∃ ts, Before.Reaches cs ts last
  misfit : c = '.' ∧ last.needsWord = true ∨
    c ∉ gapChars ∧ c ∉ letterChars ∧ (c = '.' → ds.head? ≠ some 'i')

/-- The first characters of a text that is put together from two. -/
theorem toList_firstChars {text : String} {cs ds : List Char} (htext : text.toList = cs ++ ds)
    (n : ℕ) : (firstChars text (cs.length + n)).toList = cs ++ ds.take n := by
  rw [firstChars, String.toList_ofList, htext, List.take_length_add_append]

namespace Stuck

variable {cs ds : List Char} {last : Before} {c : Char} (h : Stuck cs last c ds)

include h

/-- No text goes on differently with the same two characters. -/
theorem not_grammatical {text : String} (es : List Char) (htext : text.toList = cs ++ c :: es)
    (hes : c = '.' → last.needsWord = false → ds.head? ≠ some 'i' → es.head? ≠ some 'i') :
    ¬ Grammatical text := by
  obtain ⟨ts, hreach⟩ := h.reaches
  rcases h.misfit with ⟨rfl, hlast⟩ | ⟨hc, hl, hi⟩
  · exact hreach.not_grammatical_dot htext hlast
  · cases hlast : last.needsWord with
    | false => exact hreach.not_grammatical_stray htext hc hl fun hdot => hes hdot hlast (hi hdot)
    | true =>
      -- no character behind a full stop helps here, not even that of a mark
      by_cases hdot : c = '.'
      · subst hdot
        exact hreach.not_grammatical_dot htext hlast
      · exact hreach.not_grammatical_stray htext hc hl fun h => absurd h hdot

section Prefixes

variable {text : String} (htext : text.toList = cs ++ c :: ds)

include htext

/-- A word at the end does not help. -/
theorem not_grammatical_append_word : ¬ Grammatical (text ++ "a") := by
  apply h.not_grammatical (ds ++ ['a'])
  · simp [htext]
  · intro _ _ hi
    cases ds with
    | nil => simp
    | cons d ds => simpa using hi

theorem grammatical_iff : Grammatical (firstChars text cs.length) ↔ last.needsWord = false := by
  obtain ⟨ts, hreach⟩ := h.reaches
  apply hreach.grammatical_iff
  simpa using toList_firstChars htext 0

/-- What stands in front of the character can be completed, by a word if not as it is. -/
theorem viable : Grammatical (firstChars text cs.length) ∨
    Grammatical (firstChars text cs.length ++ "a") := by
  cases hlast : last.needsWord with
  | false => exact .inl ((h.grammatical_iff htext).mpr hlast)
  | true =>
    obtain ⟨ts, hreach⟩ := h.reaches
    right
    apply hreach.grammatical_append_word _ hlast
    simpa using toList_firstChars htext 0

/-- What ends with the character cannot be completed, if the character is no full stop behind a
word. -/
theorem not_completable
    (hno : ¬ (text.toList[cs.length]? = some '.' ∧ Grammatical (firstChars text cs.length))) :
    ¬ Completable (firstChars text (cs.length + 1)) := by
  rintro ⟨more, hmore⟩
  have hget : text.toList[cs.length]? = some c := by simp [htext]
  refine h.not_grammatical more.toList ?_ ?_ hmore
  · simp [toList_firstChars htext 1]
  · intro hdot hlast _
    exact absurd ⟨by rw [hget, hdot], (h.grammatical_iff htext).mpr hlast⟩ hno

/-- What ends with the next character cannot be completed. -/
theorem not_completable_next (hlt : cs.length + 1 < text.toList.length) :
    ¬ Completable (firstChars text (cs.length + 2)) := by
  rintro ⟨more, hmore⟩
  have hne : ds ≠ [] := by
    rintro rfl
    simp [htext] at hlt
  obtain ⟨d, es, rfl⟩ := List.exists_cons_of_ne_nil hne
  refine h.not_grammatical (d :: more.toList) ?_ ?_ hmore
  · simp [toList_firstChars htext 2]
  · exact fun _ _ hi => hi

end Prefixes

end Stuck

/-- The fault names a token, which starts with `c` and stands in front of `c :: ds`. -/
def Fault.NamesToken (f : Fault) (c : Char) (ds : List Char) : Prop :=
  ∃ more, f.token? = some (String.ofList (c :: more)) ∧ more <+: ds

/-- Tokens that do not fit stop the reading at a character of the text. -/
theorem exists_stuck {text : List Char} {f : Fault}
    (h : Before.start.run (Token.scan 0 text) = .error f) :
    ∃ cs c ds last, text = cs ++ c :: ds ∧ Stuck cs last c ds ∧ f.start = cs.length ∧
      f.NamesToken c ds := by
  obtain ⟨us, t, vs, last, htokens, hrun, hstep⟩ := Before.run_eq_error h
  have hscan := Token.scans_scan 0 text
  rw [htokens] at hscan
  obtain ⟨cs, es, rfl, hcs, hes, hstart⟩ := hscan.split
  rw [Nat.zero_add] at hstart
  have hreach : Before.Reaches cs us last := ⟨hcs, hrun⟩
  rcases Before.step_eq_error hstep with ⟨i, rfl, hlast, rfl⟩ | ⟨i, c, rfl, rfl⟩
  · -- the rest of the text starts with the mark
    obtain ⟨ds, rfl, -⟩ := Scans.eq_mark_cons hes
    exact ⟨cs, '.', 'i' :: ds, last, rfl, ⟨⟨us, hreach⟩, .inl ⟨rfl, hlast⟩⟩, hstart, ['i'], rfl,
      List.prefix_append ['i'] ds⟩
  · obtain ⟨ds, rfl, hc, hl, hi⟩ := Scans.eq_stray_cons hes
    exact ⟨cs, c, ds, last, rfl, ⟨⟨us, hreach⟩, .inr ⟨hc, hl, hi⟩⟩, hstart, [], rfl,
      List.nil_prefix⟩

/-! ## Faults of texts -/

theorem Tree.ofText_eq_error_iff {text : String} {e : SyntaxError} :
    Tree.ofText text = .error e ↔
      ∃ f, Passage.ofText text.toList = .error f ∧ e = .ofFault text.toList f := by
  rw [Tree.ofText]
  cases Passage.ofText text.toList with
  | ok p => simp
  | error f => simp [eq_comm]

/-- The position of an error is the number of bytes in front of the fault. -/
theorem position_ofFault {text cs ds : List Char} {f : Fault} (htext : text = cs ++ ds)
    (hstart : f.start = cs.length) :
    (SyntaxError.ofFault text f).position = some ((byteLength cs : ℕ) : ℤ) := by
  show some ((ByteIndex.of text).offset f.start) = _
  rw [hstart, htext, ByteIndex.offset_natCast (by simp), List.take_left]

/-- A text that ends where a word has to come lacks only this word. -/
theorem earliest_of_reaches {text : String} {ts : List Token} {last : Before}
    (h : Before.Reaches text.toList ts last) (hlast : last.needsWord = true) :
    (SyntaxError.ofFault text.toList (.missingWord last)).Earliest text where
  incomplete := ⟨fun _ => h.grammatical_append_word rfl hlast, fun _ => rfl⟩
  found hne := absurd rfl hne

/-- A text with a character that does not fit is refused at this character. -/
theorem earliest_of_stuck {text : String} {cs ds : List Char} {c : Char} {last : Before}
    {f : Fault} (htext : text.toList = cs ++ c :: ds) (h : Stuck cs last c ds)
    (hstart : f.start = cs.length) (htoken : f.NamesToken c ds) :
    (SyntaxError.ofFault text.toList f).Earliest text where
  incomplete := by
    constructor
    · intro hnone
      change f.token? = none at hnone
      obtain ⟨more, htoken, -⟩ := htoken
      rw [hnone] at htoken
      cases htoken
    · intro ha
      exact absurd ha (h.not_grammatical_append_word htext)
  found _ := by
    have hget : text.toList[cs.length]? = some c := by simp [htext]
    have hposition : (SyntaxError.ofFault text.toList f).position =
        some ((byteLength (text.toList.take cs.length) : ℕ) : ℤ) := by
      rw [position_ofFault htext hstart, htext, List.take_left]
    have hfirst : f.token?.bind (·.toList.head?) = some c := by
      obtain ⟨more, htoken, -⟩ := htoken
      rw [htoken, Option.bind_some, String.toList_ofList, List.head?_cons]
    refine ⟨cs.length, hposition, ⟨c, hget, hfirst⟩, h.viable htext, h.not_completable htext, ?_⟩
    exact fun _ _ hlt => h.not_completable_next htext hlt

/-- **A text that is refused is refused as early as can be.** -/
theorem ofText_error_earliest {text : String} {e : SyntaxError}
    (he : Tree.ofText text = .error e) : e.Earliest text := by
  obtain ⟨f, hf, rfl⟩ := Tree.ofText_eq_error_iff.mp he
  have hverdict := Passage.ofTokens_error_iff.mp hf
  rw [Before.verdict] at hverdict
  cases hrun : Before.start.run (Token.scan 0 text.toList) with
  | ok last =>
    rw [hrun] at hverdict
    have hreach : Before.Reaches text.toList _ last := ⟨Token.scans_scan 0 text.toList, hrun⟩
    cases hlast : last.needsWord with
    | false =>
      have := last.finish_of_not_needsWord hlast
      simp only [this] at hverdict
      cases hverdict
    | true =>
      have := last.finish_of_needsWord hlast
      simp only [this] at hverdict
      cases hverdict
      exact earliest_of_reaches hreach hlast
  | error g =>
    rw [hrun] at hverdict
    cases hverdict
    obtain ⟨cs, c, ds, last, htext, hstuck, hstart, htoken⟩ := exists_stuck hrun
    exact earliest_of_stuck htext hstuck hstart htoken

/-- A full stop behind a word that starts no mark. -/
theorem earliest_lone_dot :
    ∃ e, Tree.ofText "mi .éi" = .error e ∧ e.Earliest "mi .éi" := by
  have h : Passage.ofText "mi .éi".toList = .error (.strayChar 3 '.' (.word ⟨0, ['m', 'i']⟩)) := by
    cbv
  have he := Tree.ofText_eq_error_iff.mpr ⟨_, h, rfl⟩
  exact ⟨_, he, ofText_error_earliest he⟩

end Lojban
