import Lojban.Command
import Lojban.Proofs.Arguments
import Lojban.Proofs.Outcomes
import Lojban.Proofs.ScreenLog

/-!
# Reading one text from the command line

What `parse` does, from its arguments to its status. The answer for a text, its tree or the reason
why it is refused, comes from the text and from what the lists came to (`answerOf`), and what is
printed comes from the answer (`shownLines`, `complaints`), apart from what loading the lists shows.

Main results:
* `on_parse`: what is printed is that of the answer for the text.
* `main_parse_json`: with `--format json` this is one document, and nothing stands in front of it if
  and only if the lists are loaded.
-/

namespace Lojban

open Text CommandLine

/-! ## Specification -/

namespace Command

/-- What reading a text gives once the lists have come to an outcome. -/
def answerOf (lists : Except LoadError Lexicon) (text : String) : Except Failure Tree :=
  match lists with
  | .ok lex => (lex.read Level.warning text).value
  | .error e => .error (.unreadable e)

/-- An answer as a document. -/
def document : Except Failure Tree → Json
  | .ok t => t.toJson
  | .error f => .record [("error", f.toJson)]

/-- What is printed of an answer. -/
def shownLines (format : Format) (answer : Except Failure Tree) : List String :=
  match format, answer with
  | .json, _ => [(document answer).render]
  | .text, .ok t => [t.outline, "\nWords: " ++ " ".intercalate t.words]
  | .text, .error _ => []

/-- What is printed for errors. -/
def complaints : Except Failure Tree → List String
  | .ok _ => []
  | .error f => ["ERROR: " ++ f.describe]

/-- The status that goes with an answer. -/
def statusOf : Except Failure Tree → Status
  | .ok _ => 0
  | .error _ => 1

end Command

/-- The session once lines have been printed, and lines for errors. -/
def Session.withLines (s : Session) (lines errors : List String) : Session :=
  { s with
    stdout := s.stdout ++ Run.printed lines
    stderr := s.stderr ++ Run.printed errors }

/-! ## Printing -/

namespace Run

@[simp] theorem printed_nil : printed [] = "" := rfl

@[simp] theorem printed_singleton (line : String) : printed [line] = line ++ "\n" := by
  rw [printed_cons, printed_nil, String.append_empty]

theorem printed_append (lines lines' : List String) :
    printed (lines ++ lines') = printed lines ++ printed lines' := by
  simp [printed]

end Run

namespace Session

@[simp] theorem withLines_withLines (s : Session) (lines lines' errors errors' : List String) :
    (s.withLines lines errors).withLines lines' errors' =
      s.withLines (lines ++ lines') (errors ++ errors') := by
  simp only [withLines, Run.printed_append, String.append_assoc]

end Session

namespace Run

@[simp] theorem on_print (line : String) (s : Session) :
    (print line).on s = (.ok (), s.withLines [line] []) := by
  rw [print, on_modify, Session.withLines, printed_singleton, printed_nil, String.append_empty,
    String.append_assoc]

@[simp] theorem on_printError (line : String) (s : Session) :
    (printError line).on s = (.ok (), s.withLines [] [line]) := by
  rw [printError, on_modify, Session.withLines, printed_singleton, printed_nil, String.append_empty,
    String.append_assoc]

end Run

/-! ## Steps -/

namespace Run

/-- Reading a text gives what comes of the lexicon, and shows nothing but what loading the lists
shows. -/
theorem on_readText_of_lexicon {s s' : Session} {outcome : Except Trouble Lexicon}
    (h : lexicon.on s = (outcome, s')) (hs' : s'.OnScreen) (text : String) :
    (readText text).on s =
      (outcome >>= fun lex => (lex.read Level.warning text).value.mapError Trouble.failure,
        s') := by
  cases outcome with
  | error t =>
    simp only [readText, lexiconOr, on_bind, h]
    rfl
  | ok lex =>
    have hquiet : ∀ r ∈ (lex.read Level.warning text).records, r.level < Level.warning := by
      intro r hr
      exact lt_of_le_of_lt ((lex.atMost_read Level.warning text).le r hr) (by decide)
    simp only [readText, lexiconOr, on_bind, h, on_get, hs'.threshold, on_takeLogged,
      hs'.deliverAll_eq_self hquiet]
    show _ = ((lex.read Level.warning text).value.mapError Trouble.failure, s')
    cases (lex.read Level.warning text).value <;> rfl

/-- Reading a text gives its answer. -/
theorem on_readText {s s' : Session} {lists : Except LoadError Lexicon}
    (hlists : lexicon.on s = (lists.mapError LoadError.trouble, s')) (hs' : s'.OnScreen)
    (text : String) :
    (readText text).on s = ((Command.answerOf lists text).mapError Trouble.failure, s') := by
  rw [on_readText_of_lexicon hlists hs']
  cases lists <;> rfl

/-- What reading a text gives comes from what the shared store gives, and from nothing else. -/
theorem value_on_readText {s : Session} (hs : s.OnScreen) (text : String) :
    ((readText text).on s).1 =
      s.lists >>= fun lex => (lex.read Level.warning text).value.mapError Trouble.failure := by
  rw [on_readText_of_lexicon hs.on_lexicon_eq ((hs.output _).store _)]

theorem on_setUpLog_screen (s : Session) :
    (setUpLog none Level.warning false).on s = (.ok (), s.withScreen) := rfl

end Run

namespace Command

theorem on_tryFailure {α : Type} {x : Run α} {s s' : Session} {answer : Except Failure α}
    (h : x.on s = (answer.mapError Trouble.failure, s')) :
    (tryFailure x).on s = (.ok answer, s') := by
  rw [tryFailure, Run.on_tryCatch, Run.on_bind, h]
  cases answer <;> rfl

/-- A text that is given is read as it is. -/
theorem on_inputText {text : String} (hne : text ≠ "") (file : Option String) (s : Session) :
    (inputText (some text) file).on s = (.ok text, s) := by
  rw [inputText, Option.getD_some, if_pos hne, Run.on_pure]

/-- What is printed of a text is that of its answer. -/
theorem on_parse {text file : Option String} {input : String} {s s₀ s₁ : Session}
    {answer : Except Failure Tree} (hinput : (inputText text file).on s = (.ok input, s₀))
    (hread : (Run.readText input).on s₀ = (answer.mapError Trouble.failure, s₁)) (format : Format) :
    (parse text file format).on s =
      (.ok (statusOf answer), s₁.withLines (shownLines format answer) (complaints answer)) := by
  simp only [parse, Run.on_bind, hinput, on_tryFailure hread]
  cases answer with
  | error f =>
    cases format <;>
      simp only [reduceCtorEq, ↓reduceIte, Run.on_pure, Run.on_bind, Run.on_print,
        Run.on_printError, Session.withLines_withLines, List.nil_append, List.append_nil] <;> rfl
  | ok t =>
    cases format <;>
      simp only [Run.on_pure, Run.on_bind, Run.on_print, Session.withLines_withLines,
        List.append_nil] <;> rfl

/-- A command that is asked for without switches of the program is carried out with the log on the
screen. -/
theorem on_main {arguments : List String} {c : CommandLine.Command}
    (h : Invocation.ofArguments arguments = .ok ⟨false, none, some c⟩) (s : Session) :
    (main arguments).on s = (run c).on s.withScreen := by
  simp only [main, h, Run.on_bind, Run.on_setUpLog_screen]

/-- A text that is given as an argument is read as it is, and its answer is printed. -/
theorem on_main_text {text : String} (hne : text ≠ "") (hdash : text.toList.head? ≠ some '-')
    (format : Option Format) {lists : Except LoadError Lexicon} {s s₁ : Session}
    (hlists : Run.lexicon.on s.withScreen = (lists.mapError LoadError.trouble, s₁))
    (hs₁ : s₁.OnScreen) :
    (main ("parse" :: text :: formatArguments format)).on s =
      (.ok (statusOf (answerOf lists text)),
        s₁.withLines (shownLines (format.getD .text) (answerOf lists text))
          (complaints (answerOf lists text))) := by
  rw [on_main (ofArguments_parse format hdash)]
  exact on_parse (on_inputText hne none s.withScreen) (Run.on_readText hlists hs₁ text) _

/-! ## A text as a document -/

/-- Something is shown of the lists exactly if they cannot be loaded. -/
theorem loadNotice_eq_empty_iff {lists : Except LoadError Lexicon} :
    loadNotice lists = "" ↔ ∃ lex, lists = .ok lex := by
  cases lists with
  | ok lex => exact ⟨fun _ => ⟨lex, rfl⟩, fun _ => rfl⟩
  | error e =>
    constructor
    · intro h
      have hlast := congrArg String.toList h
      simp [loadNotice, LineFormat.line] at hlast
    · rintro ⟨lex, ⟨⟩⟩

/-- What is printed in front of a document is seen. -/
theorem append_document_eq_iff (shown notice : String) (format : Except Failure Tree) :
    shown ++ notice ++ Run.printed (shownLines .json format) =
      shown ++ (document format).render ++ "\n" ↔ notice = "" := by
  rw [shownLines, Run.printed_singleton, ← String.toList_inj, ← String.toList_inj]
  simp [List.append_assoc]

/-- **One document is printed for a text, and nothing else if the lists are loaded.** In a process
that has just been started, `--format json` prints the tree of the text or the failure to read it,
be it of whichever kind, and ends with zero or one. A failure to load the lists puts a line of the
log in front of the document. -/
theorem main_parse_json (s : Session) (env : Environment) {text : String} (hne : text ≠ "")
    (hdash : text.toList.head? ≠ some '-') :
    let start : Session := { s with env := env.values, store := none }
    ∃ opened lists s',
      Lexicon.Loads s.disk.still (Sources.ofVariables env.values).value opened lists ∧
      let answer := answerOf lists text
      ((Run.readText text).on start.withScreen).1 = answer.mapError Trouble.failure ∧
      (main ["parse", text, "--format", "json"]).on start = (.ok (statusOf answer), s') ∧
      s'.stdout = s.stdout ++ loadNotice lists ++ (document answer).render ++ "\n" ∧
      (s'.stdout = s.stdout ++ (document answer).render ++ "\n" ↔ ∃ lex, lists = .ok lex) := by
  intro start
  have hscreen := start.onScreen_withScreen
  obtain ⟨opened, lists, hloads, hvalue⟩ := Lexicon.load_loads s.disk.still env.nulFree_sources
  have hlists := hscreen.on_lexicon_of_load rfl hvalue
  have hs₁ := (hscreen.output (loadNotice lists)).store
    (some ⟨start.withScreen.sharedStore.sources, .settled lists⟩)
  refine ⟨opened, lists, _, hloads, congrArg Prod.fst (Run.on_readText hlists hs₁ text),
    on_main_text hne hdash (some .json) hlists hs₁, ?_, ?_⟩
  · show s.stdout ++ loadNotice lists ++ Run.printed (shownLines .json _) = _
    rw [shownLines, Run.printed_singleton, ← String.append_assoc]
  · rw [← loadNotice_eq_empty_iff]
    exact append_document_eq_iff s.stdout (loadNotice lists) (answerOf lists text)

/-! ### Lists that are there and lists that are not -/

/-- The files and the lists are there. -/
def sampleSession : Session where
  disk := sampleDisk
  env := sampleEnvironment.values

/-- The tree of a text of one word. -/
def wordTree : Tree :=
  .node .text "mi" 0 2 [.node .sentence "mi" 0 2 [.node .word "mi" 0 2 []]]

theorem lists_sampleSession : sampleSession.lists = .ok sampleLexicon := by
  cbv

theorem answerOf_sampleLexicon : answerOf (.ok sampleLexicon) "mi" = .ok wordTree := by
  cbv

/-- The document of a word is all that is printed. -/
theorem main_parse_json_word :
    "mi" ≠ "" ∧ "mi".toList.head? ≠ some '-' ∧
      ∃ s', (main ["parse", "mi", "--format", "json"]).on sampleSession = (.ok 0, s') ∧
        s'.stdout = wordTree.toJson.render ++ "\n" := by
  have hne : "mi" ≠ "" := by decide
  have hdash : "mi".toList.head? ≠ some '-' := by decide
  refine ⟨hne, hdash, ?_⟩
  have htree : ((Run.readText "mi").on sampleSession.withScreen).1 = .ok wordTree := by
    have hvalue := Run.value_on_readText sampleSession.onScreen_withScreen "mi"
    rw [show sampleSession.withScreen.lists = _ from lists_sampleSession] at hvalue
    exact hvalue.trans (congrArg (·.mapError Trouble.failure) answerOf_sampleLexicon)
  obtain ⟨opened, lists, s', -, hread, hmain, -, hstdout⟩ :=
    main_parse_json sampleSession sampleEnvironment hne hdash
  have hanswer : answerOf lists "mi" = .ok wordTree := by
    have heq := hread.symm.trans htree
    cases hanswer : answerOf lists "mi" with
    | error f => rw [hanswer] at heq; cases heq
    | ok t => rw [hanswer] at heq; cases heq; rfl
  have hlists : ∃ lex, lists = .ok lex := by
    cases lists with
    | error e => cases hanswer
    | ok lex => exact ⟨lex, rfl⟩
  rw [hanswer] at hmain hstdout
  refine ⟨s', hmain, ?_⟩
  have hprinted : s'.stdout = "" ++ wordTree.toJson.render ++ "\n" := hstdout.mpr hlists
  rwa [String.empty_append] at hprinted

/-- Without lists, a line of the log stands in front of the document. -/
theorem main_parse_json_no_lists :
    let start : Session := { disk := sampleDisk, env := [("VALSI_WORDLIST_DIR", "missing")] }
    let failure : LoadError := ⟨"missing/cmavo.txt", .disk .noEntry "missing/cmavo.txt"⟩
    ((Run.readText "mi").on start.withScreen).1 = .error failure.trouble ∧
      ((main ["parse", "mi", "--format", "json"]).on start).2.stdout ≠
        (document (.error (.unreadable failure))).render ++ "\n" := by
  intro start failure
  have hscreen := start.onScreen_withScreen
  have hload : (Lexicon.load start.withScreen.disk.still
      start.withScreen.sharedStore.sources).value =
        Except.mapError LoadError.trouble (.error failure) := by cbv
  have hlists := hscreen.on_lexicon_of_load rfl hload
  have hs₁ := (hscreen.output (loadNotice (.error failure))).store
    (some ⟨start.withScreen.sharedStore.sources, .settled (.error failure)⟩)
  have hmain := on_main_text (by decide : "mi" ≠ "") (by decide) (some .json) hlists hs₁
  refine ⟨congrArg Prod.fst (Run.on_readText hlists hs₁ "mi"), ?_⟩
  intro hstdout
  have hshown : ((main ["parse", "mi", "--format", "json"]).on start).2.stdout =
      "" ++ loadNotice (.error failure) ++
        Run.printed (shownLines .json (.error (.unreadable failure))) :=
    congrArg (·.2.stdout) hmain
  rw [hshown, ← String.empty_append (s := (document _).render), append_document_eq_iff] at hstdout
  obtain ⟨lex, hlex⟩ := loadNotice_eq_empty_iff.mp hstdout
  cases hlex

end Command

end Lojban
