import Lojban.Proofs.FileInput

/-!
# A text as an argument

`parse` with a text reads that text and not what is typed in, prints its tree and its words or why
it is refused, and ends accordingly (`Answers`). Only an empty text is taken for none at all.

Main result: `main_parse_answers_iff`.
-/

namespace Lojban

open CommandLine

/-! ## Specification -/

namespace Command

/-- How a run ends that comes to an outcome: with a status, unless the trouble is no failure. -/
def endOf : Except Trouble Tree → Except Trouble Status
  | .ok _ => .ok 0
  | .error (.failure _) => .ok 1
  | .error t => .error t

/-- What is done in the session `s` answers with the outcome of reading a text. Nothing that is
typed in is read, the tree and the words are all that is printed of a text that is accepted, and
what is printed for errors is why it is refused. -/
structure Answers (s : Session) (outcome : Except Trouble Tree)
    (done : Except Trouble Status × Session) : Prop where
  ends : done.1 = endOf outcome
  stdin_eq : done.2.stdin = s.stdin
  accepts : ∀ t, outcome = .ok t →
    done.2.stdout = s.stdout ++ t.outline ++ "\n" ++ "\n" ++
      "Words: " ++ " ".intercalate t.words ++ "\n" ∧
    done.2.stderr = s.stderr
  refuses : ∀ f, outcome = .error (.failure f) →
    done.2.stderr = s.stderr ++ "ERROR: " ++ f.describe ++ "\n"

end Command

/-! ## Troubles with the lists -/

/-- Whatever keeps a store from giving a lexicon, it is not that there is no more input. -/
theorem Store.get_ne_noInput (view : DiskView) (s : Store) :
    (s.get view).value.1 ≠ .error .noInput := by
  intro h
  cases ofLists_of_get h

/-! ## Reading what is given -/

namespace Command

/-- A trouble that is no failure escapes. -/
theorem on_tryFailure_escapes {α : Type} {x : Run α} {s s' : Session} {t : Trouble}
    (h : x.on s = (.error t, s')) (ht : ∀ f, t ≠ .failure f) :
    (tryFailure x).on s = (.error t, s') := by
  rw [tryFailure, Run.on_tryCatch, Run.on_bind, h]
  cases t with
  | failure f => exact absurd rfl (ht f)
  | nulInPath | disk | encoding | noInput => rfl

section Ends

variable {s s' : Session} (hstdin : s'.stdin = s.stdin)

include hstdin

theorem answers_of_tree (hstdout : s'.stdout = s.stdout) (hstderr : s'.stderr = s.stderr)
    (t : Tree) : Answers s (.ok t) (.ok 0, s'.withLines (shownLines .text (.ok t)) []) where
  ends := rfl
  stdin_eq := hstdin
  accepts := by
    rintro _ ⟨⟩
    have hwords : "\nWords: " = "\n" ++ "Words: " := rfl
    refine ⟨?_, ?_⟩
    · rw [Session.withLines, hstdout, shownLines, Run.printed_cons, hwords]
      simp only [Run.printed_singleton, String.append_assoc]
    · rw [Session.withLines, Run.printed_nil, String.append_empty, hstderr]
  refuses := by rintro f ⟨⟩

theorem answers_of_failure (hstderr : s'.stderr = s.stderr) (f : Failure) :
    Answers s (.error (.failure f)) (.ok 1, s'.withLines [] ["ERROR: " ++ f.describe]) where
  ends := rfl
  stdin_eq := hstdin
  accepts := by rintro t ⟨⟩
  refuses := by
    rintro _ ⟨⟩
    rw [Session.withLines, Run.printed_singleton, hstderr]
    simp only [String.append_assoc]

/-- A trouble that is no failure ends the run. -/
theorem answers_of_trouble {t : Trouble} (ht : ∀ f, t ≠ .failure f) :
    Answers s (.error t) (.error t, s') where
  ends := by
    cases t with
    | failure f => exact absurd rfl (ht f)
    | nulInPath | disk | encoding | noInput => rfl
  stdin_eq := hstdin
  accepts := by rintro t ⟨⟩
  refuses := by
    rintro f ⟨⟩
    exact absurd rfl (ht f)

end Ends

/-- Once there is a text to read, the run answers with its outcome. -/
theorem answers_parse {text file : Option String} {input : String} {s s₀ : Session}
    (hinput : (inputText text file).on s = (.ok input, s₀)) (hs₀ : s₀.OnScreen) :
    Answers s₀ ((Run.readText input).on s₀).1 ((parse text file .text).on s) := by
  cases hlists : s₀.lists with
  | ok lex =>
    obtain ⟨s₁, hlex, hs₁, hstdin, hstdout, hstderr⟩ : ∃ s₁, Run.lexicon.on s₀ = (.ok lex, s₁) ∧
        s₁.OnScreen ∧ s₁.stdin = s₀.stdin ∧ s₁.stdout = s₀.stdout ∧ s₁.stderr = s₀.stderr := by
      obtain ⟨store, hlex⟩ := hs₀.on_lexicon_ok hlists
      exact ⟨_, hlex, hs₀.store store, rfl, rfl, rfl⟩
    have hread : (Run.readText input).on s₀ =
        ((lex.read Level.warning input).value.mapError Trouble.failure, s₁) :=
      Run.on_readText_of_lexicon hlex hs₁ input
    rw [hread, on_parse hinput hread .text]
    cases (lex.read Level.warning input).value with
    | ok t => exact answers_of_tree hstdin hstdout hstderr t
    | error f => exact answers_of_failure hstdin hstderr f
  | error t =>
    obtain ⟨s₁, hlex, hs₁, hstdin, hstderr⟩ : ∃ s₁, Run.lexicon.on s₀ = (.error t, s₁) ∧
        s₁.OnScreen ∧ s₁.stdin = s₀.stdin ∧ s₁.stderr = s₀.stderr :=
      ⟨_, hlists ▸ hs₀.on_lexicon_eq, (hs₀.output _).store _, rfl, rfl⟩
    have hread : (Run.readText input).on s₀ = (.error t, s₁) :=
      Run.on_readText_of_lexicon hlex hs₁ input
    rw [hread]
    by_cases ht : ∃ f, t = .failure f
    · obtain ⟨f, rfl⟩ := ht
      have hanswer : (Run.readText input).on s₀ =
          ((Except.error f : Except Failure Tree).mapError Trouble.failure, s₁) := hread
      rw [on_parse hinput hanswer .text]
      exact answers_of_failure hstdin hstderr f
    · have hdone : (parse text file .text).on s = (.error t, s₁) := by
        simp only [parse, Run.on_bind, hinput, on_tryFailure_escapes hread (not_exists.mp ht)]
      rw [hdone]
      exact answers_of_trouble hstdin (not_exists.mp ht)

/-! ## Asking for a text -/

/-- A line that is read is taken from what is typed in. -/
theorem stdin_readInput_ne {s s' : Session} {line : List Char}
    (h : readInput.on s = (.ok line, s')) : s'.stdin ≠ s.stdin := by
  intro hsame
  simp only [readInput, Run.on_bind, Run.on_get] at h
  split_ifs at h with hempty
  · cases h
  · obtain ⟨-, rfl⟩ := Prod.mk.inj h
    have hlength := congrArg (fun stdin => stdin.toList.length) hsame
    have hpos : s.stdin.toList.length ≠ 0 := by simpa using hempty
    simp only [String.toList_ofList, List.length_drop] at hlength
    omega

/-- Reading a text never fails for want of input. -/
theorem value_on_readText_ne_noInput {s : Session} (hs : s.OnScreen) (input : String) :
    ((Run.readText input).on s).1 ≠ .error .noInput := by
  rw [Run.value_on_readText hs]
  have hlists : s.lists ≠ .error .noInput := Store.get_ne_noInput _ _
  cases hlex : s.lists with
  | error t =>
    rw [hlex] at hlists
    intro h
    obtain rfl := Except.error.inj h
    exact hlists rfl
  | ok lex =>
    show (lex.read Level.warning input).value.mapError Trouble.failure ≠ _
    cases (lex.read Level.warning input).value <;> simp [Except.mapError]

/-- A run that asks for a text does not answer with the outcome of one that has been given. -/
theorem not_answers_prompt {s : Session} (hs : s.OnScreen) (given : String) :
    ¬ Answers s ((Run.readText given).on s).1 ((parse (some "") none .text).on s) := by
  intro h
  by_cases hstdin : s.stdin = ""
  · have hinput := on_inputText_prompt (some "") none rfl rfl
      (on_readInput_empty (s := s.withLines ["Enter Lojban text:"] []) hstdin)
    have hends := h.ends
    have hne := value_on_readText_ne_noInput hs given
    rw [on_parse_error hinput] at hends
    cases houtcome : ((Run.readText given).on s).1 with
    | ok t => rw [houtcome] at hends; cases hends
    | error t =>
      rw [houtcome] at hends hne
      cases t with
      | noInput => exact hne rfl
      | failure | nulInPath | disk | encoding => cases hends
  · obtain ⟨stdin, hread⟩ := on_readInput (s := s.withLines ["Enter Lojban text:"] []) hstdin
    have hasked : Session.OnScreen { s.withLines ["Enter Lojban text:"] [] with stdin } :=
      ⟨hs.threshold, hs.handlers⟩
    have hanswers := answers_parse (on_inputText_prompt (some "") none rfl rfl hread) hasked
    exact stdin_readInput_ne hread (hanswers.stdin_eq.symm.trans h.stdin_eq)

/-- **A text that is given is answered, unless it is empty.** What `parse` does with a text as its
only argument is to answer with the outcome of reading that text, whatever the lists come to and
whatever is typed in, if and only if the text is not empty. -/
theorem main_parse_answers_iff (s : Session) {text : String}
    (hdash : text.toList.head? ≠ some '-') :
    Answers s ((Run.readText text).on s.withScreen).1 ((main ["parse", text]).on s) ↔
      text ≠ "" := by
  have hsame : ∀ {outcome done}, Answers s outcome done ↔ Answers s.withScreen outcome done :=
    ⟨fun h => ⟨h.ends, h.stdin_eq, h.accepts, h.refuses⟩,
      fun h => ⟨h.ends, h.stdin_eq, h.accepts, h.refuses⟩⟩
  have hmain : (main ["parse", text]).on s = (parse (some text) none .text).on s.withScreen :=
    on_main (ofArguments_parse none hdash) s
  rw [hsame, hmain]
  constructor
  · rintro h rfl
    exact not_answers_prompt s.onScreen_withScreen "" h
  · intro hne
    exact answers_parse (on_inputText hne none s.withScreen) s.onScreen_withScreen

/-! ### What is given and what is typed in -/

/-- Another line is typed in than the one that is given. -/
def typedSession (line : String) : Session :=
  { sampleSession with stdin := line ++ "\n" }

theorem value_on_readText_word {s : Session} (hs : s.OnScreen)
    (hlists : s.lists = .ok sampleLexicon) : ((Run.readText "mi").on s).1 = .ok wordTree := by
  rw [Run.value_on_readText hs, hlists]
  exact congrArg (·.mapError Trouble.failure) answerOf_sampleLexicon

/-- The word that is given is read, and not the one that is typed in. -/
theorem main_parse_answers_iff_word :
    let s := typedSession "qle"
    let done := (main ["parse", "mi"]).on s
    "mi".toList.head? ≠ some '-' ∧ "mi" ≠ "" ∧ done.1 = .ok 0 ∧ done.2.stdin = "qle\n" ∧
      done.2.stdout = wordTree.outline ++ "\n" ++ "\n" ++ "Words: " ++ "mi" ++ "\n" ∧
      done.2.stderr = "" := by
  intro s done
  have hdash : "mi".toList.head? ≠ some '-' := by decide
  have hne : "mi" ≠ "" := by decide
  have htree := value_on_readText_word s.onScreen_withScreen lists_sampleSession
  have hanswers := (main_parse_answers_iff s hdash).mpr hne
  obtain ⟨hstdout, hstderr⟩ := hanswers.accepts wordTree htree
  have hends := hanswers.ends
  rw [htree] at hends
  have hblank : s.stdout = "" := rfl
  rw [hblank, String.empty_append] at hstdout
  exact ⟨hdash, hne, hends, hanswers.stdin_eq, hstdout, hstderr⟩

/-- A text that is given but empty is not read. It would be refused; the word that is typed in
instead is accepted. -/
theorem main_parse_prompts :
    let s := typedSession "mi"
    ((Run.readText "").on s.withScreen).1 =
        .error (.failure (.ungrammatical (.ofFault [] (.missingWord .start)))) ∧
      ((main ["parse", ""]).on s).1 = .ok 0 := by
  intro s
  constructor
  · have hfault : Passage.ofText "".toList = .error (.missingWord .start) := by decide +kernel
    have hanswer : answerOf (.ok sampleLexicon) "" =
        .error (.ungrammatical (.ofFault [] (.missingWord .start))) := by
      show (sampleLexicon.read Level.warning "").value = _
      rw [Lexicon.value_read, Tree.ofText, hfault]
      rfl
    have hlists : s.withScreen.lists = .ok sampleLexicon := lists_sampleSession
    rw [Run.value_on_readText s.onScreen_withScreen, hlists]
    exact congrArg (·.mapError Trouble.failure) hanswer
  · obtain ⟨stdin, hread⟩ :=
      on_readInput (s := s.withScreen.withLines ["Enter Lojban text:"] []) (by decide)
    have hasked : Session.OnScreen
        { s.withScreen.withLines ["Enter Lojban text:"] [] with stdin } := ⟨rfl, rfl⟩
    have hline : s.typedText = "mi" := by decide +kernel
    have hinput : (inputText (some "") none).on s.withScreen =
        (.ok s.typedText, { s.withScreen.withLines ["Enter Lojban text:"] [] with stdin }) :=
      on_inputText_prompt (some "") none rfl rfl hread
    rw [hline] at hinput
    have hends := (answers_parse hinput hasked).ends
    rw [value_on_readText_word hasked lists_sampleSession] at hends
    have hmain := on_main (ofArguments_parse none (by decide : "".toList.head? ≠ some '-')) s
    exact (congrArg Prod.fst hmain).trans hends

end Command

end Lojban
