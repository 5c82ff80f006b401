import Lojban.Reading
import Lojban.Store

/-!
# Sessions

Everything that outlives one operation: the disk, the environment, the store that operations share,
the handlers that log records go to, and what has been printed. A `Run` is an operation on a
session. When it meets a trouble, what it did up to then stays done.
-/

namespace Lojban

/-! ## Handlers -/

/-- How a record is written. -/
inductive LineFormat where
  /-- Time, level and message. -/
  | plain
  /-- Time, source, level, place in the program and message. -/
  | detailed
deriving DecidableEq, Repr

/-- The time that the lines of a log show, which stands still. -/
def clock : String := "1970-01-01 00:00:00"

/-- The place in the program that a record is said to come from. -/
def recordPlace : String := "[SRC:0]"

/-- The line of a record. -/
def LineFormat.line (f : LineFormat) (r : Record) : String :=
  let fields := match f with
    | .plain => [clock ++ ",000", r.level.name, r.message]
    | .detailed => [clock ++ ",000", r.source, r.level.name, recordPlace, r.message]
  " - ".intercalate fields ++ "\n"

/-- What is shown of a record if there is no handler at all: the bare message, from warnings on. -/
def Record.lastResort (r : Record) : String :=
  if Level.warning ≤ r.level then r.message ++ "\n" else ""

/-- Where a handler writes to. -/
inductive Sink where
  | stdout
  | file (loc : Location)
  /-- The records themselves are kept. -/
  | memory
deriving DecidableEq, Repr

/-- A receiver of records from a level on. -/
structure Handler where
  sink : Sink
  level : Level := 0
  format : LineFormat := .plain
deriving DecidableEq, Repr

/-! ## Sessions -/

/-- The state that operations share. -/
structure Session where
  disk : Disk := {}
  env : Variables := []
  /-- The store for operations that are not given a lexicon; made at its first use. -/
  store : Option Store := none
  /-- The level from which on records are made at all. -/
  threshold : Level := Level.warning
  handlers : List Handler := []
  /-- The name under which commands write records. It depends on how the program was started. -/
  commandSource : String := Source.command
  /-- The clock of a count: how many microseconds after its start so many items are done. -/
  elapsed : Int → Int := fun _ => 0
  /-- The records kept by handlers that keep them. -/
  kept : Array Record := #[]
  stdin : String := ""
  stdout : String := ""
  stderr : String := ""

/-- An operation on a session. -/
abbrev Run (α : Type) := ExceptT Trouble (StateM Session) α

namespace Session

/-- Hands a record to one handler. -/
def handle (s : Session) (r : Record) (h : Handler) : Session :=
  if h.level ≤ r.level then
    match h.sink with
    | .stdout => { s with stdout := s.stdout ++ h.format.line r }
    | .file loc =>
      { s with disk := s.disk.append loc (Text.Utf8.encode (h.format.line r).toList) }
    | .memory => { s with kept := s.kept.push r }
  else s

/-- Hands a record on to all handlers, once its source has let it through. Where there are none, it
goes to standard error instead. -/
def emit (s : Session) (r : Record) : Session :=
  if s.handlers.isEmpty then { s with stderr := s.stderr ++ r.lastResort }
  else s.handlers.foldl (handle · r) s

/-- Hands a record on, if its level is high enough. -/
def deliver (s : Session) (r : Record) : Session :=
  if Level.passes s.threshold r.level then s.emit r else s

/-- Hands over records in order. -/
def deliverAll (s : Session) (rs : List Record) : Session :=
  rs.foldl deliver s

/-- The disk, as records change it. -/
def view (s : Session) : DiskView :=
  fun rs => (s.deliverAll rs).disk

end Session

namespace Run

/-- Hands a record over. -/
def log (source : String) (level : Level) (message : String) : Run Unit :=
  modify fun s => s.deliver ⟨source, level, message⟩

/-- Takes a result and hands its records over. -/
def takeLogged {α : Type} (x : Logged α) : Run α := do
  modify fun s => s.deliverAll x.records
  return x.value

/-- Prints a line. -/
def print (line : String) : Run Unit :=
  modify fun s => { s with stdout := s.stdout ++ line ++ "\n" }

/-- Prints a line for errors. -/
def printError (line : String) : Run Unit :=
  modify fun s => { s with stderr := s.stderr ++ line ++ "\n" }

/-! ## Log set-up -/

/-- The line above and below the announcement of a run. -/
def rule : String := "".pushn '=' 80

/-- Opens a log file for appending. -/
def openLog (file : String) : Run Location := do
  let s ← get
  match s.disk.openAppend (s.disk.absolute file) with
  | .error e => throw e.trouble
  | .ok (loc, disk) =>
    set { s with disk }
    return loc

/-- The sinks of a log: standard output and, for a name that is not empty, a file. -/
def openSinks (logFile : Option String) : Run (List Sink) :=
  match logFile with
  | none | some "" => return [.stdout]
  | some file => do return [.stdout, .file (← openLog file)]

/-- Replaces all handlers by one for each sink. The old ones are gone even if the log file cannot be
opened; the level then stays what it was. -/
def setUpLog (logFile : Option String) (level : Level) (debug : Bool) : Run Unit := do
  modify fun s => { s with handlers := [] }
  let level := if debug then Level.debug else level
  let format := if debug then LineFormat.detailed else LineFormat.plain
  let sinks ← openSinks logFile
  modify fun s =>
    { s with threshold := level, handlers := sinks.map fun sink => { sink, level, format } }
  log Source.root Level.debug rule
  log Source.root Level.debug ("valsi run started - " ++ clock)
  log Source.root Level.debug rule

/-! ## The shared store -/

/-- The shared store, with the sources of the environment at its first use. -/
def sharedStore : Run Store := do
  let s ← get
  match s.store with
  | some store => return store
  | none =>
    let sources ← takeLogged (Sources.ofVariables s.env)
    let store : Store := { sources }
    modify fun s => { s with store := some store }
    return store

/-- The lexicon of the shared store. -/
def lexicon : Run Lexicon := do
  let store ← sharedStore
  let (result, store) ← takeLogged (store.get (← get).view)
  modify fun s => { s with store := some store }
  match result with
  | .ok lex => return lex
  | .error t => throw t

/-- The given lexicon, or that of the shared store. -/
def lexiconOr (given : Option Lexicon) : Run Lexicon :=
  match given with
  | some lex => return lex
  | none => lexicon

/-! ## Reading -/

/-- Reads a text with the given lexicon, or with that of the shared store. The lexicon is there
before the text is looked at. -/
def readText (text : String) (given : Option Lexicon := none) : Run Tree := do
  let lex ← lexiconOr given
  match ← takeLogged (lex.read (← get).threshold text) with
  | .ok t => return t
  | .error f => throw (.failure f)

/-- Reads lines with the given lexicon, or with that of the shared store, and gives the tracker
back. -/
def readLines (lines : List String) (given : Option Lexicon := none)
    (tracker : Option Tracker := none) : Run (List LineResult × Option Tracker) := do
  let lex ← lexiconOr given
  takeLogged (lex.readLines (← get).threshold tracker lines)

end Run

end Lojban
