import Mathlib
import Lojban.Proofs.Arguments
import Lojban.Proofs.CheckReport
import Lojban.Proofs.Decoding
import Lojban.Proofs.RecordLevels

/-!
# Checking a file

What the program does when it is asked to check a file, from its arguments to its status and to what
it prints: once the lists have been loaded and the file holds a text, it reports on the lines of the
text. Log records may be printed before the report, but only if they are asked for.

Main result: `main_check`.
-/

namespace Lojban

open Text CommandLine

namespace Command

/-! ## Steps -/

theorem on_tryFile {α : Type} {x : Run α} {s s' : Session} {a : α} (h : x.on s = (.ok a, s')) :
    (tryFile x).on s = (.ok (.ok a), s') := by
  have hx : (do return .ok (← x) : Run (Except String α)).on s = (.ok (.ok a), s') := by
    rw [Run.on_bind, h]
    rfl
  rw [tryFile, Run.on_tryCatch, hx]

theorem on_readFileLines {file : String} {s : Session} {text : List Char}
    (h : s.disk.read (.ofString file) = .ok (Utf8.encode text)) :
    (readFileLines file).on s = (.ok ((lines text).map String.ofList), s) := by
  have htext : WordSet.readText s.disk (.ofString file) = .ok text := by
    rw [WordSet.readText, h]
    simp only [Utf8.decodeChunked_encode]
    rfl
  simp only [readFileLines, Run.on_bind, Run.on_get, htext]
  rfl

/-- Reading lines gives their results, and a tracker that has advanced once a line. -/
theorem on_readLines (lines : List String) (lex : Lexicon) (t : Tracker) (s : Session) :
    ∃ s', s.Continues s' ∧ (Run.readLines lines lex t).on s =
      (.ok (lex.results s.threshold none lines, some (t.advanced lines.length)), s') := by
  have hlevels := (lex.atMost_readLinesFrom s.threshold 1 t lines).le
  refine ⟨_, s.continues_deliverAll hlevels, ?_⟩
  have hvalue := lex.value_readLinesFrom s.threshold 1 t lines
  rw [Option.map_some] at hvalue
  simp only [Run.readLines, Run.lexiconOr, Run.on_bind, Run.on_pure, Run.on_get, Run.on_takeLogged,
    Lexicon.readLines, hvalue, Lexicon.results_eq]

/-- Once the lists are loaded, checking a file prints the report on its lines. -/
theorem on_check {file : String} {s s₁ : Session} {lex : Lexicon} {text : List Char}
    (hlex : Run.lexicon.on s = (.ok lex, s₁))
    (hfile : s₁.disk.read (.ofString file) = .ok (Utf8.encode text)) :
    let results := lex.results s₁.threshold none ((lines text).map String.ofList)
    ∃ s₂, s₁.Continues s₂ ∧
      (check file).on s = (.ok (if results.all LineResult.ok then 0 else 1),
        { s₂ with stdout := s₂.stdout ++ Run.printed (checkReport file results) }) := by
  intro results
  have hgiven : (do
      let lex ← Run.lexicon
      return (lex, ← readFileLines file) : Run (Lexicon × List String)).on s =
        (.ok (lex, (lines text).map String.ofList), s₁) := by
    simp only [Run.on_bind, hlex, on_readFileLines hfile, Run.on_pure]
  let progress : Progress :=
    { total := ((lines text).map String.ofList).length, title := "Checking " ++ file }
  let t : Tracker := { progress, source := s₁.commandSource, elapsed := s₁.elapsed }
  obtain ⟨s₂, hread, hresults⟩ := on_readLines ((lines text).map String.ofList) lex t s₁
  have hclose := s₂.continues_deliverAll
    (t.advanced ((lines text).map String.ofList).length).atMost_close.le
  refine ⟨_, hread.trans hclose, ?_⟩
  simp only [check, Run.on_bind, on_tryFile hgiven, Run.on_get]
  simp only [t, progress] at hresults
  simp only [hresults, Run.on_bind, Run.on_takeLogged, Run.on_forM_print, Run.on_pure]
  rfl

/-! ## The program -/

/-- **Checking a file.** Where the arguments ask to check a file, the log is set up, the lists are
loaded and the bytes of the file are those of a text, the program reports on the lines of the text,
whatever records it shows before that; without `--debug` it shows none. -/
theorem main_check {arguments : List String} {inv : Invocation} {file : String} {s s₀ s₁ : Session}
    {lex : Lexicon} {text : List Char} (harguments : Invocation.ofArguments arguments = .ok inv)
    (hcommand : inv.command = some (.check file))
    (hlog : (Run.setUpLog inv.logFile Level.warning inv.debug).on s = (.ok (), s₀))
    (hlex : Run.lexicon.on s₀ = (.ok lex, s₁))
    (hfile : s₁.disk.read (.ofString file) = .ok (Utf8.encode text)) (threshold : Level) :
    ∃ ls rejected status report shown s₂,
      (∀ ls', IsLines ls' text ↔ ls' = ls) ∧
      Checks lex threshold file ls rejected status report ∧
      (main arguments).on s = (.ok status, s₂) ∧
      s₂.stdout = s.stdout ++ shown ++ Run.printed report ∧
      (inv.debug = false → shown = "") := by
  obtain ⟨s₂, hcontinues, hcheck⟩ := on_check hlex hfile
  have hbefore := (Run.continues_setUpLog hlog).trans (Run.continues_lexicon hlex)
  obtain ⟨shown, hshown, hquiet⟩ := (hbefore.trans hcontinues).stdout_eq
  rw [lex.results_congr s₁.threshold threshold none none] at hcheck
  have hmain : (main arguments).on s = (check file).on s₀ := by
    simp only [main, harguments, hcommand, Run.on_bind, hlog]
    rfl
  refine ⟨_, _, _, _, shown, _, fun _ => isLines_iff, checks_lines lex threshold none file text,
    hmain.trans hcheck, congrArg (· ++ _) hshown, ?_⟩
  intro hdebug
  apply hquiet
  rw [hdebug]
  show Level.info < Level.warning
  decide

/-! ### A file with a word that is not listed -/

/-- Two lines that are not blank; the last word is in no list. -/
def corpus : List Char :=
  "mi\n\nmi xu\r\n".toList

/-- The lists are in a directory, the text is in a file next to it. -/
def corpusSession : Session where
  disk := { entries := [(["corpus.txt"], .file (Utf8.encode corpus)), (["lists"], .directory),
    (["lists", "cmavo.txt"], .file (Utf8.encode "mi\n".toList)),
    (["lists", "gismu.txt"], .file (Utf8.encode "klama\n".toList)),
    (["lists", "rafsi.txt"], .file (Utf8.encode "kla\n".toList))] }
  env := [("VALSI_WORDLIST_DIR", "lists")]

/-- The lexicon of these lists. -/
def corpusLexicon : Lexicon where
  cmavo := .ofList ["mi"]
  gismu := .ofList ["klama"]
  rafsi := .ofList ["kla"]

/-- One of two lines is accepted, the third line of the file is not. -/
theorem main_check_corpus :
    ∃ rejected s₂, (main ["check", "corpus.txt"]).on corpusSession = (.ok 1, s₂) ∧
      s₂.stdout = Run.printed (summary "corpus.txt" 2 1 rejected) ∧ rejected.length = 1 := by
  let s₀ := ((Run.setUpLog none Level.warning false).on corpusSession).2
  have hlog : (Run.setUpLog none Level.warning false).on corpusSession = (.ok (), s₀) := rfl
  have hlex : (Run.lexicon.on s₀).1 = .ok corpusLexicon := by cbv
  have hfile : (Run.lexicon.on s₀).2.disk.read (.ofString "corpus.txt") =
      .ok (Utf8.encode corpus) := by cbv
  obtain ⟨ls, rejected, status, report, shown, s₂, hls, hchecks, hmain, hstdout, hshown⟩ :=
    main_check (ofArguments_check (by decide)) rfl hlog (Prod.ext hlex rfl) hfile Level.warning
  have hls : ["mi".toList, [], "mi xu".toList] = ls := (hls _).mp (isLines_iff.mpr (by cbv))
  subst hls
  have hchecked : checkedCount ["mi".toList, [], "mi xu".toList] = 2 := by decide +kernel
  have hvalid : validCount corpusLexicon Level.warning ["mi".toList, [], "mi xu".toList] = 1 := by
    decide +kernel
  have hstatus : status = 1 := by
    rw [hchecks.status_eq, if_neg (by decide +kernel)]
  have hreport := hchecks.report_eq
  have hlength := hchecks.length_rejected
  rw [hchecked, hvalid] at hreport hlength
  refine ⟨rejected, s₂, hstatus ▸ hmain, ?_, hlength⟩
  rw [hstdout, hshown rfl, hreport]
  rfl

end Command

end Lojban
