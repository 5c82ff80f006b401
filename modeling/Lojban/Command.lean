import Lojban.CommandLine.Invocation
import Lojban.Session

/-!
# Commands

What the program does with its arguments. A command prints its answer and ends with a status: zero
when all is well, one when a text was refused, two when the arguments make no sense.
-/

namespace Lojban

/-- The exit status of a run. -/
abbrev Status := Nat

open CommandLine

namespace Command

/-! ## Input -/

/-- The text of the file at `path`, decoded as a whole. -/
def readFile (path : String) : Run (List Char) := do
  match (← get).disk.read (.ofString path) with
  | .error e => throw e.trouble
  | .ok bytes =>
    match Text.Utf8.decode bytes with
    | .error fault => throw (.encoding fault)
    | .ok text => return Text.unifyLineEnds text

/-- One line of standard input, without its line feed. -/
def readInput : Run (List Char) := do
  let input := (← get).stdin.toList
  if input.isEmpty then throw .noInput
  else
    let line := input.takeWhile (· ≠ '\n')
    modify fun s => { s with stdin := String.ofList (input.drop (line.length + 1)) }
    return line

/-- The text to read: the argument as it is, or else what the file holds, or else a line of input,
these without the blanks around them. Empty names count as not given. -/
def inputText (text file : Option String) : Run String := do
  if text.getD "" ≠ "" then return text.getD ""
  else if file.getD "" ≠ "" then
    return String.ofList (Text.strip (← readFile (file.getD "")))
  else
    Run.print "Enter Lojban text:"
    return String.ofList (Text.strip (← readInput))

/-! ## Commands -/

/-- Gives the failure of an operation as a value; other troubles end the run. -/
def tryFailure {α : Type} (x : Run α) : Run (Except Failure α) :=
  tryCatch (do return .ok (← x)) fun
    | .failure f => return .error f
    | t => throw t

/-- Reads a text and prints its tree. -/
def parse (text file : Option String) (format : Format) : Run Status := do
  let text ← inputText text file
  match ← tryFailure (Run.readText text) with
  | .error f =>
    if format = .json then
      Run.print (Json.record [("error", f.toJson)]).render
    Run.printError ("ERROR: " ++ f.describe)
    return 1
  | .ok tree =>
    match format with
    | .json => Run.print tree.toJson.render
    | .text =>
      Run.print tree.outline
      Run.print ("\nWords: " ++ " ".intercalate tree.words)
    return 0

/-- The lines of the file at `path`, decoded chunk by chunk. -/
def readFileLines (path : String) : Run (List String) := do
  match WordSet.readText (← get).disk (.ofString path) with
  | .error t => throw t
  | .ok text => return (Text.lines text).map String.ofList

/-- Gives a failure or a disk problem as its wording; other troubles end the run. -/
def tryFile {α : Type} (x : Run α) : Run (Except String α) :=
  tryCatch (do return .ok (← x)) fun
    | .failure f => return .error f.describe
    | .disk problem path => return .error (Trouble.disk problem path).message
    | t => throw t

/-- What `check` prints about the lines of a file. -/
def checkReport (file : String) (results : List LineResult) : List String :=
  let failures := results.filterMap fun r =>
    match r.outcome with
    | .ok _ => none
    | .error f => some (r.number, f)
  let valid := results.length - failures.length
  ["File: " ++ file,
    "Lines checked: " ++ toString results.length,
    "Valid: " ++ toString valid ++ " (" ++ percentText valid results.length ++ ")"] ++
    if failures.isEmpty then []
    else
      "\nErrors:" :: failures.map fun (number, f) =>
        "  line " ++ toString number ++ ": [" ++ f.kind ++ "] " ++ f.message

/-- Reads a file line by line and prints how many lines were accepted, and why the others were
not. -/
def check (file : String) : Run Status := do
  let given ← tryFile do
    let lex ← Run.lexicon
    return (lex, ← readFileLines file)
  match given with
  | .error message =>
    Run.printError ("ERROR: " ++ message)
    return 1
  | .ok (lex, lines) =>
    let progress : Progress := { total := lines.length, title := "Checking " ++ file }
    let s ← get
    let tracker : Tracker := { progress, source := s.commandSource, elapsed := s.elapsed }
    let (results, tracker) ← Run.readLines lines lex tracker
    if let some t := tracker then
      let _ ← Run.takeLogged t.close
    (checkReport file results).forM Run.print
    return if results.all LineResult.ok then 0 else 1

/-- `n` with blanks in front, up to six characters. -/
def padded (n : Nat) : String :=
  let digits := toString n
  "".pushn ' ' (6 - digits.length) ++ digits

/-- Prints where the word lists are and how many words they hold. -/
def info : Run Status := do
  let store ← Run.sharedStore
  let sources := store.sources
  Run.print "=== valsi wordlists ===\n"
  Run.print "Python: <VERSION>"
  Run.print ("Directory: " ++ sources.directoryText)
  match ← tryFailure Run.lexicon with
  | .error f =>
    Run.printError ("ERROR: " ++ f.describe)
    return 1
  | .ok lex =>
    Run.print ("  cmavo: " ++ padded lex.cmavo.size ++ "  (" ++ sources.cmavoPath.text ++ ")")
    Run.print ("  gismu: " ++ padded lex.gismu.size ++ "  (" ++ sources.gismuPath.text ++ ")")
    Run.print ("  rafsi: " ++ padded lex.rafsi.size ++ "  (" ++ sources.rafsiPath.text ++
      ", not used for validation)")
    return 0

/-- Carries a command out. -/
def run : CommandLine.Command → Run Status
  | .parse text file format => parse text file format
  | .check file => check file
  | .info => info

/-- The whole program. Arguments are looked at before anything else happens; the log is set up only
for a command. -/
def main (arguments : List String) : Run Status := do
  match Invocation.ofArguments arguments with
  | .error (.help page) =>
    modify fun s => { s with stdout := s.stdout ++ page.help }
    return 0
  | .error (.complaint page c) =>
    modify fun s => { s with stderr := s.stderr ++ page.usage }
    Run.printError (page.program ++ ": error: " ++ c.message)
    return 2
  | .ok invocation =>
    match invocation.command with
    | none =>
      modify fun s => { s with stdout := s.stdout ++ mainPage.help }
      return 1
    | some command =>
      Run.setUpLog invocation.logFile Level.warning invocation.debug
      run command

end Command

end Lojban
