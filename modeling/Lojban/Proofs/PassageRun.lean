import Mathlib.Tactic
import Lojban.Passage

/-!
# Reading a passage token by token

`Before.step` takes one token from the place that was reached, and `Before.run` all tokens of a list.
A passage is read in this way: `ofTokens_verdict` says that `Passage.ofTokens` gives the fault of the
run or, when the run ends where a word has to come, the missing word.
-/

namespace Lojban

namespace Before

/-- A word has to come. -/
def needsWord : Before → Bool
  | word _ => false
  | _ => true

/-- The place behind one more token, or the fault of a token that does not fit. -/
def step : Before → Token → Except Fault Before
  | _, .word w => .ok (.word w)
  | .word _, .mark i => .ok (.mark i)
  | before, .mark i => .error (.misplacedMark i before)
  | before, .stray i c => .error (.strayChar i c before)

/-- The place behind some more tokens, or the fault of the first that does not fit. -/
def run : Before → List Token → Except Fault Before
  | before, [] => .ok before
  | before, t :: ts =>
    match before.step t with
    | .ok next => run next ts
    | .error f => .error f

/-- A text may only end behind a word. -/
def finish : Before → Except Fault Unit
  | word _ => .ok ()
  | before => .error (.missingWord before)

/-- What is wrong with some more tokens up to the end of the text, if anything. -/
def verdict (before : Before) (ts : List Token) : Except Fault Unit :=
  match before.run ts with
  | .ok last => last.finish
  | .error f => .error f

theorem run_append (before : Before) (ts us : List Token) :
    before.run (ts ++ us) = before.run ts >>= fun last => last.run us := by
  induction ts generalizing before with
  | nil => rfl
  | cons t ts ih =>
    rw [List.cons_append, run, run]
    cases before.step t with
    | error f => rfl
    | ok next => exact ih next

theorem verdict_cons (before : Before) (t : Token) (ts : List Token) :
    before.verdict (t :: ts) =
      match before.step t with
      | .ok next => next.verdict ts
      | .error f => .error f := by
  rw [verdict, run]
  cases before.step t <;> rfl

/-- Behind tokens that fit, the verdict is that on the rest. -/
theorem verdict_append {before last : Before} {ts : List Token} (h : before.run ts = .ok last)
    (us : List Token) : before.verdict (ts ++ us) = last.verdict us := by
  rw [verdict, run_append, h]
  rfl

theorem finish_of_needsWord {before : Before} (h : before.needsWord = true) :
    before.finish = .error (.missingWord before) := by
  cases before with
  | word w => cases h
  | start => rfl
  | mark i => rfl

theorem finish_of_not_needsWord {before : Before} (h : before.needsWord = false) :
    before.finish = .ok () := by
  cases before with
  | word w => rfl
  | start => cases h
  | mark i => cases h

theorem step_mark {before : Before} (h : before.needsWord = true) (i : ℕ) :
    before.step (.mark i) = .error (.misplacedMark i before) := by
  cases before with
  | word w => cases h
  | start => rfl
  | mark j => rfl

theorem step_stray (before : Before) (i : ℕ) (c : Char) :
    before.step (.stray i c) = .error (.strayChar i c before) := by
  cases before <;> rfl

/-- Tokens that fit hold no stray character. -/
theorem stray_not_mem {before last : Before} {ts : List Token} (h : before.run ts = .ok last)
    (i : ℕ) (c : Char) : Token.stray i c ∉ ts := by
  intro hmem
  obtain ⟨us, vs, rfl⟩ := List.append_of_mem hmem
  rw [run_append] at h
  cases hus : before.run us with
  | error f => rw [hus] at h; cases h
  | ok next =>
    rw [hus] at h
    change next.run (.stray i c :: vs) = .ok last at h
    rw [run, step_stray] at h
    cases h

/-- Where a word has to come, the last token is no word. -/
theorem getLast?_ne_word {last : Before} {ts : List Token} (h : start.run ts = .ok last)
    (hlast : last.needsWord = true) (w : Word) : ts.getLast? ≠ some (.word w) := by
  intro hw
  obtain ⟨us, rfl⟩ := List.getLast?_eq_some_iff.mp hw
  rw [run_append] at h
  cases hus : start.run us with
  | error f => rw [hus] at h; cases h
  | ok next =>
    rw [hus] at h
    cases h
    cases hlast

/-- Ending the text is at fault exactly where a word has to come. -/
theorem finish_eq_error_iff {before : Before} {f : Fault} :
    before.finish = .error f ↔ before.needsWord = true ∧ f = .missingWord before := by
  cases before <;> simp [finish, needsWord, eq_comm]

/-- A fault is that of a token that does not fit, or the text ends where a word has to come. -/
theorem verdict_eq_error_iff {before : Before} {ts : List Token} {f : Fault} :
    before.verdict ts = .error f ↔ before.run ts = .error f ∨
      ∃ last, before.run ts = .ok last ∧ last.needsWord = true ∧ f = .missingWord last := by
  unfold verdict
  cases before.run ts with
  | error g => simp
  | ok last => simp [finish_eq_error_iff]

/-- A run that takes tokens ends behind the last of them. -/
theorem run_eq_ok {before last : Before} {ts : List Token} (h : before.run ts = .ok last)
    (hne : ts ≠ []) :
    ∃ us t next, ts = us ++ [t] ∧ before.run us = .ok next ∧ next.step t = .ok last := by
  obtain ⟨us, t, rfl⟩ := (List.eq_nil_or_concat' ts).resolve_left hne
  rw [run_append] at h
  cases hus : before.run us with
  | error f => rw [hus] at h; cases h
  | ok next =>
    refine ⟨us, t, next, rfl, hus, ?_⟩
    rw [hus] at h
    change next.run [t] = .ok last at h
    rw [run] at h
    cases hstep : next.step t with
    | error f => rw [hstep] at h; cases h
    | ok last' => rw [hstep] at h; exact h

/-- Where a token leads to a place where a word has to come, it is a mark. -/
theorem eq_mark_of_step {before last : Before} {t : Token} (h : before.step t = .ok last)
    (hlast : last.needsWord = true) : ∃ i, t = .mark i ∧ last = .mark i := by
  cases t with
  | word w => cases before <;> cases h <;> cases hlast
  | stray i c => rw [step_stray] at h; cases h
  | mark i =>
    cases before with
    | word w => cases h; exact ⟨i, rfl, rfl⟩
    | start => cases h
    | mark j => cases h

/-- A run stops at the first token that does not fit. -/
theorem run_eq_error {before : Before} {ts : List Token} {f : Fault}
    (h : before.run ts = .error f) :
    ∃ us t vs next, ts = us ++ t :: vs ∧ before.run us = .ok next ∧ next.step t = .error f := by
  induction ts generalizing before with
  | nil => cases h
  | cons t ts ih =>
    rw [run] at h
    cases hstep : before.step t with
    | error g =>
      rw [hstep] at h
      cases h
      exact ⟨[], t, ts, before, rfl, rfl, hstep⟩
    | ok next =>
      rw [hstep] at h
      obtain ⟨us, u, vs, last, rfl, hrun, hu⟩ := ih h
      refine ⟨t :: us, u, vs, last, rfl, ?_, hu⟩
      rw [run, hstep]
      exact hrun

end Before

namespace Passage

/-- Both places of the reader, by induction on the tokens. -/
theorem ofTokens_verdict_aux (ts : List Token) :
    (∀ before : Before, before.needsWord = true →
      (ofTokensFrom before ts).map (fun _ => ()) = before.verdict ts) ∧
    ∀ w, (ofTokensBehind w ts).map (fun _ => ()) = (Before.word w).verdict ts := by
  induction ts with
  | nil =>
    refine ⟨fun before h => ?_, fun w => rfl⟩
    show _ = before.finish
    rw [Before.finish_of_needsWord h, ofTokensFrom]
    rfl
  | cons t ts ih =>
    obtain ⟨hfrom, hbehind⟩ := ih
    have hmap : ∀ (x : Except Fault Passage) (f : Passage → Passage),
        (x.map f).map (fun _ => ()) = x.map fun _ => () := fun x f => by cases x <;> rfl
    constructor
    · intro before h
      rw [Before.verdict_cons]
      cases t with
      | word w => exact hbehind w
      | mark i => rw [Before.step_mark h]; rfl
      | stray i c => rw [Before.step_stray]; rfl
    · intro w
      rw [Before.verdict_cons]
      cases t with
      | word v => rw [ofTokensBehind, hmap]; exact hbehind v
      | mark i => rw [ofTokensBehind, hmap]; exact hfrom (.mark i) rfl
      | stray i c => rfl

/-- What is wrong with a text, said by the run over its tokens. -/
theorem ofTokens_verdict (ts : List Token) :
    (ofTokens ts).map (fun _ => ()) = Before.start.verdict ts :=
  (ofTokens_verdict_aux ts).1 .start rfl

theorem ofTokens_error_iff {ts : List Token} {f : Fault} :
    ofTokens ts = .error f ↔ Before.start.verdict ts = .error f := by
  rw [← ofTokens_verdict]
  cases ofTokens ts <;> simp [Except.map]

theorem ofTokens_ok_iff {ts : List Token} :
    (∃ p, ofTokens ts = .ok p) ↔ Before.start.verdict ts = .ok () := by
  rw [← ofTokens_verdict]
  cases ofTokens ts <;> simp [Except.map]

end Passage

end Lojban
