import Lojban.Journal
import Lojban.Lexicon
import Lojban.Progress
import Lojban.Text.Blank
import Lojban.Text.Lines
import Lojban.Tree.OfText

/-!
# Reading texts with a lexicon

A text is accepted when it has a tree and the lexicon knows every word of it. `Lexicon.read` answers
for one text. `Lexicon.readLines` answers for each line of many, so that a bad line never stops the
lines behind it. Both keep a record of what they do; the answers do not depend on which records are
kept.
-/

namespace Lojban

/-- The tree of a text; a refusal is recorded. -/
def Tree.read (text : String) : Logged (Except SyntaxError Tree) :=
  match Tree.ofText text with
  | .ok t => return .ok t
  | .error e => do
    Logged.note Source.grammar Level.debug ("Grammar rejected input: " ++ e.message)
    return .error e

namespace Lexicon

/-- Looks every word of a tree up. The first one that is not known is recorded. -/
def check (lex : Lexicon) (t : Tree) : Logged (Except UnknownWord Unit) :=
  match t.firstUnknown? lex.isKnown with
  | none => return .ok ()
  | some w => do
    Logged.note Source.vocabulary Level.debug
      ("Unknown word '" ++ w.text ++ "' at " ++ spanText w.span)
    return .error { word := w.text, span := w.span }

/-- The tree of a text, all of whose words are known. `threshold` is the level from which on records
are kept. -/
def read (lex : Lexicon) (threshold : Level) (text : String) : Logged (Except Failure Tree) := do
  match ← Tree.read text with
  | .error e => return .error (.ungrammatical e)
  | .ok t =>
    if Level.passes threshold Level.debug then
      noteDetails Source.reading threshold Level.debug "Parsed text"
        [("text", .text text), ("words", .number t.words.length)]
    match ← lex.check t with
    | .error e => return .error (.unknownWord e)
    | .ok () => return .ok t

end Lexicon

/-! ## Many lines -/

/-- The answer for one line of many. -/
structure LineResult where
  /-- Counted from one, blank lines included. -/
  number : Nat
  /-- The line without its line end. -/
  text : String
  outcome : Except Failure Tree

/-- Whether the line was accepted. -/
def LineResult.ok (r : LineResult) : Bool :=
  match r.outcome with
  | .ok _ => true
  | .error _ => false

/-- Progress to be reported under the name of a source. -/
structure Tracker where
  progress : Progress
  source : String := Source.progress
  /-- The clock: how many microseconds after the start so many items are done. -/
  elapsed : Int → Int := fun _ => 0

namespace Tracker

/-- The tracker after an operation, which may have given a report. A state that cannot be reported
leaves no record. -/
def note (t : Tracker) (step : Progress × Except Progress.RangeError (Option String)) :
    Logged Tracker := do
  if let .ok (some report) := step.2 then
    Logged.note t.source Level.info report
  return { t with progress := step.1 }

/-- Counts one more item. -/
def advance (t : Tracker) : Logged Tracker :=
  t.note (t.progress.update 1 (t.elapsed (t.progress.done + 1)))

/-- Counts everything as done. -/
def close (t : Tracker) : Logged Tracker :=
  t.note (t.progress.close (t.elapsed t.progress.total))

end Tracker

namespace Lexicon

/-- Reads one line. A blank line has no answer. -/
def readLine (lex : Lexicon) (threshold : Level) (number : Nat) (line : String) :
    Logged (Option LineResult) :=
  let text := Text.dropRightWhile Text.isLineEnd line.toList
  if Text.isBlankLine text then return none
  else do
    let outcome ← lex.read threshold (String.ofList text)
    match outcome with
    | .ok _ => return some ⟨number, String.ofList text, outcome⟩
    | .error e =>
      Logged.note Source.reading Level.debug
        ("Line " ++ toString number ++ " failed: " ++ e.describe)
      return some ⟨number, String.ofList text, outcome⟩

/-- Reads lines, of which the first has the number `number`, and counts each of them. -/
def readLinesFrom (lex : Lexicon) (threshold : Level) (number : Nat) (tracker : Option Tracker) :
    List String → Logged (List LineResult × Option Tracker)
  | [] => return ([], tracker)
  | line :: lines => do
    let tracker ← match tracker with
      | none => pure none
      | some t => do pure (some (← t.advance))
    let first ← lex.readLine threshold number line
    (fun (more, tracker) => (first.toList ++ more, tracker)) <$>
      lex.readLinesFrom threshold (number + 1) tracker lines

/-- Reads lines, and counts each of them. -/
def readLines (lex : Lexicon) (threshold : Level) (tracker : Option Tracker)
    (lines : List String) : Logged (List LineResult × Option Tracker) :=
  lex.readLinesFrom threshold 1 tracker lines

end Lexicon

end Lojban
