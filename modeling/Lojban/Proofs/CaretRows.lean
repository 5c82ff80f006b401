import Lojban.Demo
import Lojban.Proofs.FailurePlaces
import Lojban.Proofs.Parsing

/-!
# Carets below a text

A text that is refused at a place is shown with a row of carets below it. A span counts bytes and a
row counts columns, one for each character. In front of the token that a failure names stand only
characters of one byte, so the carets start below the token. There are as many of them as the token
has bytes, so they end where it ends exactly if its characters are of one byte too. Those of words
and marks are; a stray character need not be.

Main result: `Demo.present_marks`.
-/

namespace Lojban

open Text Utf8

/-! ## Specification -/

namespace Demo

/-- What is printed above the answer for a text. -/
def heading (text : String) : List String :=
  ["".pushn '=' 60, "Input: '" ++ text ++ "'"]

/-- The reason why a text is refused, as it is printed. -/
def refusal (f : Failure) : String :=
  "  " ++ f.kind ++ " error: " ++ f.describe

/-- The carets in `row` stand in the columns from `i` to `j`. -/
def Marks (row : String) (i j : ℕ) : Prop :=
  ∀ k, row.toList[k]? = some '^' ↔ i ≤ k ∧ k < j

end Demo

/-! ## Rows -/

theorem toList_pushn (s : String) (c : Char) (n : ℕ) :
    (s.pushn c n).toList = s.toList ++ List.replicate n c := by
  rw [String.pushn_eq_repeat_push]
  induction n with
  | zero => simp [Nat.repeat]
  | succ n ih => rw [Nat.repeat, String.toList_push, ih, List.append_assoc, List.replicate_succ']

namespace Demo

/-- What `carets` prints behind the margin. -/
theorem carets_natCast (m n : ℕ) :
    carets ((m : ℤ), ((m + n : ℕ) : ℤ)) = "  " ++ ("".pushn ' ' m ++ "".pushn '^' n) := by
  have hcount : (((m + n : ℕ) : ℤ) - (m : ℤ)).toNat = n := by omega
  rw [carets, hcount, Int.toNat_natCast, String.append_assoc]

theorem marks_row (m n : ℕ) : Marks ("".pushn ' ' m ++ "".pushn '^' n) m (m + n) := by
  intro k
  rw [String.toList_append, toList_pushn, toList_pushn, String.toList_empty, List.nil_append,
    List.nil_append]
  by_cases hk : k < m
  · rw [List.getElem?_append_left (by rwa [List.length_replicate]),
      List.getElem?_replicate_of_lt hk]
    simp [hk]
  · rw [List.getElem?_append_right (by rw [List.length_replicate]; omega), List.length_replicate,
      List.getElem?_replicate]
    split_ifs <;> simp <;> omega

namespace Marks

variable {row : String} {i j j' : ℕ}

theorem stop_le (h : Marks row i j) (h' : Marks row i j') (hij : i ≤ j) : j' ≤ j := by
  by_contra hlt
  have hmark := (h' j).mpr ⟨hij, by omega⟩
  have hstop := ((h j).mp hmark).2
  omega

/-- The carets that start in a column end in one. -/
theorem stop_eq (h : Marks row i j) (h' : Marks row i j') (hij : i ≤ j) (hij' : i ≤ j') : j = j' :=
  le_antisymm (h'.stop_le h hij') (h.stop_le h' hij)

end Marks

/-- A caret for each byte is one for each character exactly if the characters are of ASCII. -/
theorem marks_row_iff (i : ℕ) (cs : List Char) :
    Marks ("".pushn ' ' i ++ "".pushn '^' (byteLength cs)) i (i + cs.length) ↔
      ∀ c ∈ cs, isAscii c = true := by
  have hmarks := marks_row i (byteLength cs)
  rw [← byteLength_eq_length_iff]
  constructor
  · intro h
    have hends := h.stop_eq hmarks (by omega) (by omega)
    omega
  · intro h
    have hends : i + byteLength cs = i + cs.length := by rw [h]
    rwa [hends] at hmarks

end Demo

/-! ## Runs -/

namespace Run

variable {s s' : Session}

theorem ofLists_of_on_lexicon {t : Trouble} (h : lexicon.on s = (.error t, s')) : t.OfLists := by
  obtain ⟨store, s₁, hstore⟩ : ∃ store s₁, sharedStore.on s = (.ok store, s₁) := by
    cases hs : s.store with
    | none => exact ⟨_, _, on_sharedStore_none hs⟩
    | some store => exact ⟨_, _, on_sharedStore_some hs⟩
  rw [on_lexicon_of_sharedStore hstore] at h
  exact Store.ofLists_of_get (congrArg Prod.fst h)

/-- A text is refused because the lists cannot be read, or by a lexicon. -/
theorem refused_of_on_readText {text : String} {f : Failure}
    (h : (readText text).on s = (.error (.failure f), s')) :
    (∃ e, f = .unreadable e) ∨
      ∃ (lex : Lexicon) (threshold : Level), (lex.read threshold text).value = .error f := by
  simp only [readText, lexiconOr, on_bind] at h
  rcases hlex : lexicon.on s with ⟨outcome, s₀⟩
  rw [hlex] at h
  cases outcome with
  | error t =>
    cases h
    cases ofLists_of_on_lexicon hlex with
    | failure e => exact .inl ⟨e, rfl⟩
  | ok lex =>
    right
    refine ⟨lex, s₀.threshold, ?_⟩
    simp only [on_get, on_takeLogged] at h
    cases hvalue : (lex.read s₀.threshold text).value with
    | ok t =>
      rw [hvalue] at h
      cases h
    | error g =>
      rw [hvalue] at h
      cases h
      rfl

end Run

namespace Demo

/-- A text that is refused at a place is shown with a row of carets. -/
theorem on_present {text : String} {s s₁ : Session} {f : Failure} {span : ℤ × ℤ}
    (hread : (Run.readText text).on (s.withLines (heading text) []) = (.error (.failure f), s₁))
    (hspan : f.span = some span) :
    (present text).on s = (.ok (), s₁.withLines [refusal f, "  " ++ text, carets span] []) := by
  have hheading : (s.withLines ["".pushn '=' 60] []).withLines ["Input: '" ++ text ++ "'"] [] =
      s.withLines (heading text) [] := by
    rw [Session.withLines_withLines]
    rfl
  simp only [present, Run.on_bind, Run.on_print, Run.on_tryCatch, hheading, hread, hspan,
    Session.withLines_withLines]
  rfl

/-- **The carets start below the token, and end where it ends exactly if it is of ASCII.** A failure
with a span names a token, and the span tells where in the text it stands. There are as many carets
as the token has bytes. Only those below a stray character can be too many. -/
theorem present_marks {text : String} {s s₁ : Session} {f : Failure} {span : ℤ × ℤ}
    (hread : (Run.readText text).on (s.withLines (heading text) []) = (.error (.failure f), s₁))
    (hspan : f.span = some span) :
    ∃ row i j, (∀ i' j', f.StandsFor text i' j' ↔ i' = i ∧ j' = j) ∧
      (present text).on s =
        (.ok (), s₁.withLines [refusal f, "  " ++ text, "  " ++ row] []) ∧
      Marks row i (i + byteLength (slice text.toList i j)) ∧
      (Marks row i j ↔ ∀ c ∈ slice text.toList i j, c.toNat < 0x80) ∧
      (¬ Marks row i j → j = i + 1 ∧ ∃ e, f = .ungrammatical e) := by
  obtain ⟨i, j, hnarrow⟩ : ∃ i j, f.NarrowAt text i j := by
    rcases Run.refused_of_on_readText hread with ⟨e, rfl⟩ | ⟨lex, threshold, hf⟩
    · cases hspan
    · exact Lexicon.narrowAt_of_read hf hspan
  have hstands := hnarrow.standsFor
  have hstop : i + (slice text.toList i j).length = j := by
    rw [length_slice text.toList hstands.le, Nat.add_sub_cancel' hstands.lt.le]
  have hiff := marks_row_iff i (slice text.toList i j)
  rw [hstop] at hiff
  refine ⟨_, i, j, ?_, ?_, marks_row i (byteLength (slice text.toList i j)), ?_, ?_⟩
  · intro i' j'
    constructor
    · exact hstands.unique
    · rintro ⟨rfl, rfl⟩
      exact hstands
  · rw [← carets_natCast]
    exact on_present hread hnarrow.span_eq
  · simpa only [isAscii, decide_eq_true_eq] using hiff
  · intro h
    exact hnarrow.token.resolve_left fun hascii => h (hiff.mpr hascii)

/-- Whatever is to be read, the short lists are there. -/
theorem on_readText_sampleSession (text : String) :
    ∃ s₁, (Run.readText text).on (Command.sampleSession.withScreen.withLines (heading text) []) =
      ((Command.answerOf (.ok sampleLexicon) text).mapError Trouble.failure, s₁) := by
  have hscreen : (Command.sampleSession.withScreen.withLines (heading text) []).OnScreen :=
    ⟨rfl, rfl⟩
  obtain ⟨store, hlex⟩ := hscreen.on_lexicon_ok Command.lists_sampleSession
  exact ⟨_, Run.on_readText_of_lexicon hlex (hscreen.store store) text⟩

/-- The carets below a word that is in no list. -/
theorem present_marks_word :
    let s := Command.sampleSession.withScreen
    let f : Failure := .unknownWord { word := "qle", span := (3, 6) }
    ∃ s₁ row, (Run.readText "mi qle").on (s.withLines (heading "mi qle") []) =
        (.error (.failure f), s₁) ∧
      f.span = some (3, 6) ∧ f.StandsFor "mi qle" 3 6 ∧
      (present "mi qle").on s = (.ok (), s₁.withLines [refusal f, "  mi qle", "  " ++ row] []) ∧
      Marks row 3 6 := by
  intro s f
  obtain ⟨s₁, hread⟩ := on_readText_sampleSession "mi qle"
  have hanswer : Command.answerOf (.ok sampleLexicon) "mi qle" = .error f := by
    cbv
  rw [hanswer] at hread
  have hstands : f.StandsFor "mi qle" 3 6 := by
    constructor <;> decide +kernel
  obtain ⟨row, i, j, hplace, hpresent, -, hexact, -⟩ := present_marks hread rfl
  obtain ⟨rfl, rfl⟩ := (hplace 3 6).mp hstands
  have hmarks : Marks row 3 6 := hexact.mpr (by simp [slice])
  exact ⟨s₁, row, hread, rfl, hstands, hpresent, hmarks⟩

/-- Two carets below a stray character of two bytes, and one of them below nothing. -/
theorem present_marks_too_many :
    let s := Command.sampleSession.withScreen
    let f : Failure := .ungrammatical
      (.ofFault "mi é".toList (.strayChar 3 'é' (.word ⟨0, ['m', 'i']⟩)))
    ∃ s₁, (Run.readText "mi é").on (s.withLines (heading "mi é") []) =
        (.error (.failure f), s₁) ∧
      f.StandsFor "mi é" 3 4 ∧
      (present "mi é").on s = (.ok (), s₁.withLines [refusal f, "  mi é", "     ^^"] []) ∧
      ¬ Marks "   ^^" 3 4 := by
  intro s f
  obtain ⟨s₁, hread⟩ := on_readText_sampleSession "mi é"
  have hanswer : Command.answerOf (.ok sampleLexicon) "mi é" = .error f := by
    have hfault : Passage.ofText "mi é".toList =
        .error (.strayChar 3 'é' (.word ⟨0, ['m', 'i']⟩)) := by
      cbv
    show (sampleLexicon.read Level.warning "mi é").value = _
    rw [Lexicon.value_read, Tree.ofText, hfault]
  rw [hanswer] at hread
  have hspan : f.span = some (3, 5) := by
    decide +kernel
  have hcarets : carets (3, 5) = "     ^^" := by
    decide +kernel
  have hpresent := on_present hread hspan
  rw [hcarets] at hpresent
  refine ⟨s₁, hread, ?_, hpresent, ?_⟩
  · constructor <;> decide +kernel
  · intro h
    exact absurd ((h 4).mp (by decide +kernel)) (by decide)

end Demo

end Lojban
