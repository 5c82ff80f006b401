import Lojban.Proofs.Checking
import Lojban.Proofs.Encodings
import Lojban.Proofs.Parsing

/-!
# Files as input

Where the input of a command comes from when it is in a file, and what becomes of a file that holds
no text. Reading one text decodes the file as a whole and lets every trouble with it escape;
checking a file decodes it chunk by chunk, after the lists have been loaded, and lets escape only
that it is not UTF-8.

Main result: `main_reports_input_iff`.
-/

namespace Lojban

open Text Utf8 CommandLine

/-! ## Specification -/

/-- The file can be opened and read. -/
def Disk.Opens (d : Disk) (file : String) : Prop :=
  ∃ bytes, d.read (.ofString file) = .ok bytes

/-- The file can be read, and its bytes are those of a text. -/
def Disk.HoldsText (d : Disk) (file : String) : Prop :=
  ∃ content, d.read (.ofString file) = .ok (encode content)

/-- The first line of the input, without the blanks around it. -/
def Session.typedText (s : Session) : String :=
  String.ofList (strip (s.stdin.toList.takeWhile (· ≠ '\n')))

namespace Command

/-- The command has the file as its input. -/
inductive HasInput (file : String) : CommandLine.Command → Prop
  | parse (format : Format) : HasInput file (.parse none (some file) format)
  | check : HasInput file (.check file)

/-- What a command does, carried out in the session `s`, with the file as its input: it ends with a
status, and if the file holds no text, this is one and a line about an error has been printed. -/
structure ReportsInput (s : Session) (file : String) (done : Except Trouble Status × Session) :
    Prop where
  ends : ∃ status, done.1 = .ok status
  refuses : ¬ s.disk.HoldsText file →
    done.1 = .ok 1 ∧ ∃ message, done.2.stderr = s.stderr ++ ("ERROR: " ++ message ++ "\n")

/-! ## One text -/

theorem on_readFile {file : String} {s : Session} {content : List Char}
    (h : s.disk.read (.ofString file) = .ok (encode content)) :
    (readFile file).on s = (.ok (unifyLineEnds content), s) := by
  simp only [readFile, Run.on_bind, Run.on_get, h, decode_encode, Run.on_pure]

/-- Every trouble with the file escapes. -/
theorem on_readFile_error {file : String} {s : Session} (h : ¬ s.disk.HoldsText file) :
    ∃ t, (readFile file).on s = (.error t, s) := by
  simp only [readFile, Run.on_bind, Run.on_get]
  cases hread : s.disk.read (.ofString file) with
  | error e => exact ⟨_, rfl⟩
  | ok bytes =>
    cases hdecode : decode bytes with
    | error fault =>
      simp only [hdecode]
      exact ⟨_, rfl⟩
    | ok content =>
      rw [decode_eq_ok_iff.mp hdecode] at hread
      exact absurd ⟨content, hread⟩ h

/-- A file that is named is read if no text is given, and its blanks at both ends do not count. -/
theorem on_inputText_file {file : String} (hne : file ≠ "") {s s' : Session}
    {outcome : Except Trouble (List Char)} (h : (readFile file).on s = (outcome, s')) :
    (inputText none (some file)).on s =
      (outcome.map fun content => String.ofList (strip content), s') := by
  rw [inputText, Option.getD_none, if_neg (by decide), Option.getD_some, if_pos hne]
  simp only [Run.on_bind, h]
  cases outcome <;> rfl

theorem on_readInput_empty {s : Session} (h : s.stdin = "") :
    readInput.on s = (.error .noInput, s) := by
  simp only [readInput, Run.on_bind, Run.on_get, h]
  rfl

theorem on_readInput {s : Session} (h : s.stdin ≠ "") :
    ∃ stdin, readInput.on s = (.ok (s.stdin.toList.takeWhile (· ≠ '\n')), { s with stdin }) := by
  have hsome : ¬ s.stdin.toList.isEmpty = true := by
    rwa [List.isEmpty_iff, String.toList_eq_nil_iff]
  simp only [readInput, Run.on_bind, Run.on_get, if_neg hsome]
  exact ⟨_, rfl⟩

/-- Without a text and without a name, a line of input is asked for. -/
theorem on_inputText_prompt (text file : Option String) (htext : text.getD "" = "")
    (hfile : file.getD "" = "") {s s' : Session} {outcome : Except Trouble (List Char)}
    (h : readInput.on (s.withLines ["Enter Lojban text:"] []) = (outcome, s')) :
    (inputText text file).on s = (outcome.map fun line => String.ofList (strip line), s') := by
  rw [inputText, htext, if_neg (by decide), hfile, if_neg (by decide)]
  simp only [Run.on_bind, Run.on_print, h]
  cases outcome <;> rfl

/-- A trouble with the input escapes. -/
theorem on_parse_error {text file : Option String} {s s₀ : Session} {t : Trouble}
    (hinput : (inputText text file).on s = (.error t, s₀)) (format : Format) :
    (parse text file format).on s = (.error t, s₀) := by
  simp only [parse, Run.on_bind, hinput]

/-- Once there is an input, what is printed for errors is that of its answer. -/
theorem on_parse_input {text file : Option String} {input : String} {s s₀ : Session}
    (hinput : (inputText text file).on s = (.ok input, s₀)) (hs₀ : s₀.OnScreen)
    (hnul : s₀.sharedStore.sources.NulFree) (format : Format) :
    ∃ answer s', ((Run.readText input).on s₀).1 = answer.mapError Trouble.failure ∧
      (parse text file format).on s = (.ok (statusOf answer), s') ∧
      s'.stderr = s₀.stderr ++ Run.printed (complaints answer) := by
  obtain ⟨lists, notice, store, -, hlists⟩ := hs₀.on_lexicon hnul
  have hread := Run.on_readText hlists ((hs₀.output notice).store store) input
  exact ⟨_, _, congrArg Prod.fst hread, on_parse hinput hread format, rfl⟩

/-- The answer for a text ends a run as it should if the file holds a text, and also if the answer
is a failure. -/
theorem reportsInput_iff_of_answer {s s' : Session} {file : String}
    {done : Except Trouble Status × Session} {answer : Except Failure Tree}
    (hdone : done = (.ok (statusOf answer), s'))
    (hstderr : s'.stderr = s.stderr ++ Run.printed (complaints answer)) :
    ReportsInput s file done ↔ s.disk.HoldsText file ∨ ∃ f, answer = .error f := by
  subst hdone
  cases answer with
  | ok t =>
    constructor
    · intro h
      by_contra hno
      obtain ⟨hstatus, -⟩ := h.refuses (mt .inl hno)
      cases hstatus
    · rintro (h | ⟨f, ⟨⟩⟩)
      exact ⟨⟨_, rfl⟩, fun hno => absurd h hno⟩
  | error f =>
    refine ⟨fun _ => .inr ⟨f, rfl⟩, fun _ => ⟨⟨_, rfl⟩, fun _ => ⟨rfl, f.describe, ?_⟩⟩⟩
    rw [hstderr, complaints, Run.printed_singleton]

/-- A run that a trouble ends does not end as it should. -/
theorem not_reportsInput {s s' : Session} {file : String} {t : Trouble} :
    ¬ ReportsInput s file (.error t, s') := by
  rintro ⟨⟨status, ⟨⟩⟩, -⟩

theorem not_holdsText_empty (d : Disk) : ¬ d.HoldsText "" := by
  rintro ⟨content, h⟩
  have hlocate : d.locate (.ofString "") = .error (.problem .noEntry "") := by
    simp [Disk.locate, Route.ofString]
  rw [Disk.read, hlocate] at h
  cases h

/-- If the file has no name, reading one text ends as it should if and only if a line is typed in
instead and refused. -/
theorem parse_reportsInput_empty_iff {s : Session} (hs : s.OnScreen)
    (hnul : s.sharedStore.sources.NulFree) (format : Format) :
    ReportsInput s "" ((parse none (some "") format).on s) ↔
      s.stdin ≠ "" ∧ ∃ t, ((Run.readText s.typedText).on s).1 = .error t := by
  by_cases hstdin : s.stdin = ""
  · rw [on_parse_error (on_inputText_prompt none (some "") rfl rfl (on_readInput_empty hstdin))]
    simp [not_reportsInput, hstdin]
  · obtain ⟨stdin, hread⟩ := on_readInput (s := s.withLines ["Enter Lojban text:"] []) hstdin
    have hasked : Session.OnScreen { s.withLines ["Enter Lojban text:"] [] with stdin } :=
      ⟨hs.threshold, hs.handlers⟩
    obtain ⟨answer, s', hanswer, hdone, hstderr⟩ :=
      on_parse_input (on_inputText_prompt none (some "") rfl rfl hread) hasked hnul format
    -- asking for the line changes nothing that the answer comes from
    have hsame : ((Run.readText s.typedText).on s).1 = answer.mapError Trouble.failure := by
      rw [← hanswer, Run.value_on_readText hs, Run.value_on_readText hasked]
      rfl
    have hrefused : (∃ t, ((Run.readText s.typedText).on s).1 = .error t) ↔
        ∃ f, answer = .error f := by
      rw [hsame]
      cases answer <;> simp [Except.mapError]
    have hkept : s'.stderr = s.stderr ++ Run.printed (complaints answer) := by
      simpa [Session.withLines] using hstderr
    rw [reportsInput_iff_of_answer hdone hkept, hrefused]
    simp [not_holdsText_empty, hstdin]

/-- Reading one text from a file ends as it should if and only if the file holds a text. If it has
no name, what is typed in has to be refused instead. -/
theorem parse_reportsInput_iff {s : Session} (hs : s.OnScreen)
    (hnul : s.sharedStore.sources.NulFree) (file : String) (format : Format) :
    ReportsInput s file ((parse none (some file) format).on s) ↔
      s.disk.HoldsText file ∨
        file = "" ∧ s.stdin ≠ "" ∧ ∃ t, ((Run.readText s.typedText).on s).1 = .error t := by
  by_cases hne : file = ""
  · subst hne
    rw [parse_reportsInput_empty_iff hs hnul]
    simp [not_holdsText_empty]
  · by_cases hholds : s.disk.HoldsText file
    · obtain ⟨content, hcontent⟩ := id hholds
      have hinput := on_inputText_file hne (on_readFile hcontent)
      obtain ⟨answer, s', -, hdone, hstderr⟩ := on_parse_input hinput hs hnul format
      rw [reportsInput_iff_of_answer hdone hstderr]
      simp [hholds]
    · obtain ⟨t, ht⟩ := on_readFile_error hholds
      rw [on_parse_error (on_inputText_file hne ht)]
      simp [not_reportsInput, hholds, hne]

/-! ## Line by line -/

/-- The lexicon and the lines of a file, the lexicon first. -/
def listsAndLines (file : String) : Run (Lexicon × List String) := do
  let lex ← Run.lexicon
  return (lex, ← readFileLines file)

/-- The troubles that checking a file reports. -/
def reports : Trouble → Bool
  | .failure _ | .disk _ _ => true
  | _ => false

theorem on_check_reported {file : String} {s s' : Session} {t : Trouble}
    (h : (listsAndLines file).on s = (.error t, s')) (ht : reports t = true) :
    (check file).on s = (.ok 1, s'.withLines [] ["ERROR: " ++ t.message]) := by
  have htry : (tryFile (listsAndLines file)).on s = (.ok (.error t.message), s') := by
    rw [tryFile, Run.on_tryCatch, Run.on_bind, h]
    cases t with
    | failure | disk => rfl
    | nulInPath | encoding | noInput => cases ht
  show (tryFile (listsAndLines file) >>= _).on s = _
  rw [Run.on_bind, htry]
  simp only [Run.on_bind, Run.on_printError, Run.on_pure]

theorem on_check_escapes {file : String} {s s' : Session} {t : Trouble}
    (h : (listsAndLines file).on s = (.error t, s')) (ht : reports t = false) :
    (check file).on s = (.error t, s') := by
  have htry : (tryFile (listsAndLines file)).on s = (.error t, s') := by
    rw [tryFile, Run.on_tryCatch, Run.on_bind, h]
    cases t with
    | failure | disk => cases ht
    | nulInPath | encoding | noInput => rfl
  show (tryFile (listsAndLines file) >>= _).on s = _
  rw [Run.on_bind, htry]

/-- A run that reports a trouble ends as it should, whatever the file holds. -/
theorem reportsInput_of_reported {s s' : Session} {file : String}
    (hstderr : s'.stderr = s.stderr) (t : Trouble) :
    ReportsInput s file (.ok 1, s'.withLines [] ["ERROR: " ++ t.message]) where
  ends := ⟨1, rfl⟩
  refuses _ := by
    refine ⟨rfl, t.message, ?_⟩
    rw [Session.withLines, Run.printed_singleton, hstderr]

theorem on_readFileLines_eq (file : String) (s : Session) :
    (readFileLines file).on s =
      ((WordSet.readText s.disk (.ofString file)).map fun text => (lines text).map String.ofList,
        s) := by
  simp only [readFileLines, Run.on_bind, Run.on_get]
  cases WordSet.readText s.disk (.ofString file) <;> rfl

theorem on_listsAndLines {s s' : Session} {outcome : Except Trouble Lexicon}
    (h : Run.lexicon.on s = (outcome, s')) (file : String) :
    (listsAndLines file).on s =
      (outcome >>= fun lex => (WordSet.readText s'.disk (.ofString file)).map fun text =>
        (lex, (lines text).map String.ofList), s') := by
  simp only [listsAndLines, Run.on_bind, h]
  cases outcome with
  | error t => rfl
  | ok lex =>
    simp only [on_readFileLines_eq]
    cases WordSet.readText s'.disk (.ofString file) <;> rfl

theorem on_listsAndLines_error {s s' : Session} {lex : Lexicon} {file : String} {t : Trouble}
    (hlex : Run.lexicon.on s = (.ok lex, s'))
    (ht : WordSet.readText s'.disk (.ofString file) = .error t) :
    (listsAndLines file).on s = (.error t, s') := by
  rw [on_listsAndLines hlex, ht]
  rfl

/-- A file holds a text, or it cannot be opened, or it can be opened and is not UTF-8. -/
theorem holdsText_or_error {d : Disk} {file : String} (hfile : NulFree file) :
    d.HoldsText file ∨
    (¬ d.Opens file ∧ ∃ problem path,
      WordSet.readText d (.ofString file) = .error (.disk problem path)) ∨
    (d.Opens file ∧ ¬ d.HoldsText file ∧ ∃ fault,
      WordSet.readText d (.ofString file) = .error (.encoding fault)) := by
  cases hread : d.read (.ofString file) with
  | error e =>
    have hclosed : ¬ d.Opens file := by
      rintro ⟨bytes, h⟩
      rw [hread] at h
      cases h
    cases e with
    | nul => exact absurd hread (Disk.read_ne_nul hfile)
    | problem problem path =>
      exact .inr (.inl ⟨hclosed, problem, path, by rw [WordSet.readText, hread]; rfl⟩)
  | ok bytes =>
    cases hdecode : decodeChunked WordSet.chunkBytes bytes with
    | ok content =>
      rw [decodeChunked_eq_ok_iff.mp hdecode] at hread
      exact .inl ⟨content, hread⟩
    | error fault =>
      refine .inr (.inr ⟨⟨bytes, hread⟩, ?_, fault, ?_⟩)
      · rintro ⟨content, hcontent⟩
        rw [hread, Except.ok.injEq] at hcontent
        rw [hcontent, decodeChunked_encode] at hdecode
        cases hdecode
      · simp only [WordSet.readText, hread, hdecode]
        rfl

/-- Checking a file ends as it should if and only if the file holds a text or the bytes of the file
are never decoded. -/
theorem check_reportsInput_iff {s : Session} (hs : s.OnScreen)
    (hnul : s.sharedStore.sources.NulFree) {file : String} (hfile : NulFree file) :
    ReportsInput s file ((check file).on s) ↔
      s.disk.HoldsText file ∨ (∃ t, s.lists = .error t) ∨ ¬ s.disk.Opens file := by
  obtain ⟨lists, notice, store, houtcome, hlists⟩ := hs.on_lexicon hnul
  have hstderr : ((s.withOutput notice).withStore store).stderr = s.stderr := rfl
  cases lists with
  | error e =>
    rw [on_check_reported (on_listsAndLines hlists file) rfl]
    exact ⟨fun _ => .inr (.inl ⟨_, houtcome⟩), fun _ => reportsInput_of_reported hstderr _⟩
  | ok lex =>
    rcases holdsText_or_error (d := s.disk) hfile with hholds | ⟨hclosed, problem, path, htrouble⟩ |
      ⟨hopens, hno, fault, htrouble⟩
    · obtain ⟨content, hcontent⟩ := id hholds
      obtain ⟨s₂, -, hcheck⟩ := on_check hlists hcontent
      rw [hcheck]
      exact ⟨fun _ => .inl hholds, fun _ => ⟨⟨_, rfl⟩, fun hno => absurd hholds hno⟩⟩
    · rw [on_check_reported (on_listsAndLines_error hlists htrouble) rfl]
      exact ⟨fun _ => .inr (.inr hclosed), fun _ => reportsInput_of_reported hstderr _⟩
    · have hlex : ¬ ∃ t, s.lists = .error t := by
        rintro ⟨t, ht⟩
        rw [houtcome] at ht
        cases ht
      rw [on_check_escapes (on_listsAndLines_error hlists htrouble) rfl]
      simp [not_reportsInput, hno, hlex, hopens]

/-! ## The program -/

/-- **Which files are reported.** A run whose input is the file ends with a status, and with the
status one and a line about an error if the file holds no text, in exactly these cases: it holds a
text; the file is to be checked, and the lists cannot be loaded or the file cannot be opened; the
name of the file is empty, and the line that is typed in instead is refused. -/
theorem main_reports_input_iff {arguments : List String} {c : CommandLine.Command} {file : String}
    {s : Session} (harguments : Invocation.ofArguments arguments = .ok ⟨false, none, some c⟩)
    (hc : HasInput file c) (hfile : NulFree file) (hnul : s.sharedStore.sources.NulFree) :
    ReportsInput s file ((main arguments).on s) ↔
      s.disk.HoldsText file ∨
      (c = .check file ∧ ((∃ t, s.lists = .error t) ∨ ¬ s.disk.Opens file)) ∨
      (c ≠ .check file ∧ file = "" ∧ s.stdin ≠ "" ∧
        ∃ t, ((Run.readText s.typedText).on s.withScreen).1 = .error t) := by
  have hscreen := s.onScreen_withScreen
  have hsame : ∀ {done}, ReportsInput s file done ↔ ReportsInput s.withScreen file done :=
    ⟨fun h => ⟨h.ends, h.refuses⟩, fun h => ⟨h.ends, h.refuses⟩⟩
  rw [on_main harguments, hsame]
  cases hc with
  | parse format =>
    have hother : CommandLine.Command.parse none (some file) format ≠ .check file := by simp
    refine (parse_reportsInput_iff hscreen hnul file format).trans ?_
    simp only [hother, false_and, false_or, ne_eq, not_false_eq_true, true_and]
    rfl
  | check =>
    refine (check_reportsInput_iff hscreen hnul hfile).trans ?_
    simp only [true_and, ne_eq, not_true_eq_false, false_and, or_false]
    rfl

/-- A file that is not there is reported when it is to be checked. -/
theorem main_reports_input_missing :
    Invocation.ofArguments ["check", "missing.txt"] =
      .ok ⟨false, none, some (.check "missing.txt")⟩ ∧
    NulFree "missing.txt" ∧ sampleSession.sharedStore.sources.NulFree ∧
    ∃ message s', (main ["check", "missing.txt"]).on sampleSession = (.ok 1, s') ∧
      s'.stderr = "ERROR: " ++ message ++ "\n" := by
  have harguments := ofArguments_check (by decide : "missing.txt".toList.head? ≠ some '-')
  have hfile : NulFree "missing.txt" := by simp [NulFree]
  have hnul : sampleSession.sharedStore.sources.NulFree := sampleEnvironment.nulFree_sources
  have hread : sampleSession.disk.read (.ofString "missing.txt") =
      .error (.problem .noEntry "missing.txt") := by cbv
  have hclosed : ¬ sampleSession.disk.Opens "missing.txt" := by
    rintro ⟨bytes, h⟩
    rw [hread] at h
    cases h
  have hno : ¬ sampleSession.disk.HoldsText "missing.txt" := by
    rintro ⟨content, h⟩
    exact hclosed ⟨_, h⟩
  have hreports := (main_reports_input_iff harguments .check hfile hnul).mpr
    (.inr (.inl ⟨rfl, .inr hclosed⟩))
  obtain ⟨hstatus, message, hstderr⟩ := hreports.refuses hno
  rw [show sampleSession.stderr = "" from rfl, String.empty_append] at hstderr
  exact ⟨harguments, hfile, hnul, message, _, Prod.ext hstatus rfl, hstderr⟩

/-- A file that is not there stops reading one text, and a file that is not UTF-8 stops checking. -/
theorem main_input_escapes :
    ((main ["parse", "-f", "missing.txt"]).on sampleSession).1 =
      .error (.disk .noEntry "missing.txt") ∧
    ((main ["check", "bad.txt"]).on sampleSession).1 =
      .error (.encoding ⟨0, 1, 0xFF, .badStart⟩) := by
  constructor
  · have hread : sampleSession.withScreen.disk.read (.ofString "missing.txt") =
        .error (.problem .noEntry "missing.txt") := by cbv
    have hfile : (readFile "missing.txt").on sampleSession.withScreen =
        (.error (.disk .noEntry "missing.txt"), sampleSession.withScreen) := by
      simp only [readFile, Run.on_bind, Run.on_get, hread]
      rfl
    have hinput := on_inputText_file (by decide : "missing.txt" ≠ "") hfile
    have hdash : "missing.txt".toList.head? ≠ some '-' := by decide
    have hmain := on_main (ofArguments_parse_file none hdash) sampleSession
    exact congrArg Prod.fst (hmain.trans (on_parse_error hinput .text))
  · obtain ⟨store, hlex⟩ := sampleSession.onScreen_withScreen.on_lexicon_ok lists_sampleSession
    have htext : WordSet.readText sampleDisk (.ofString "bad.txt") =
        .error (.encoding ⟨0, 1, 0xFF, .badStart⟩) := by cbv
    have hmain := on_main
      (ofArguments_check (by decide : "bad.txt".toList.head? ≠ some '-')) sampleSession
    have hescapes := on_check_escapes
      (on_listsAndLines_error hlex htext) rfl
    exact congrArg Prod.fst (hmain.trans hescapes)

end Command

end Lojban
