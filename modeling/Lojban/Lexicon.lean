import Lojban.Failure
import Lojban.Lexicon.Sources
import Lojban.Text.Blank
import Lojban.Text.Lines
import Lojban.Text.Utf8
import Std.Data.TreeSet

/-!
# Lexicons

A word list is a file with one entry a line. `headword?` reads a line, `WordSet.load` a file and
`Lexicon.load` the three lists of a lexicon. A word is known when it is a particle or a content
word; the combining forms are kept but not looked at.

Records may go to a file, and that file may be one of the lists. So the lists are read from a
`DiskView`, which knows what the records written in the meantime have changed.
-/

namespace Lojban

/-- A set of words, ordered by code points. -/
abbrev WordSet := Std.TreeSet String

/-! ## Entries -/

/-- The entry of a line: its first field without the marker in front. Lines that are blank or hold
the marker alone have none. -/
def headword? (marker : String) (line : List Char) : Option String :=
  let field := Text.firstField line
  let word :=
    if marker.toList.isPrefixOf field then field.drop marker.toList.length else field
  if word.isEmpty then none else some (String.ofList word)

/-- The entries of a text, line by line. -/
def entries (marker : String) (text : List Char) : List String :=
  (Text.lines text).filterMap (headword? marker)

/-! ## Files -/

/-- What the disk holds, given the records that have been written since. -/
abbrev DiskView := List Record → Disk

/-- The view of a disk that records do not change. -/
def Disk.still (d : Disk) : DiskView :=
  fun _ => d

/-- The view once the records `rs` have been written. -/
def DiskView.after (view : DiskView) (rs : List Record) : DiskView :=
  fun more => view (rs ++ more)

namespace WordSet

/-- How many bytes of a list are read at a time. -/
def chunkBytes : Nat := 8192

/-- The text of the file that a route leads to, decoded chunk by chunk. -/
def readText (d : Disk) (way : Route) : Except Trouble (List Char) :=
  match d.read way with
  | .error e => .error e.trouble
  | .ok bytes => (Text.Utf8.decodeChunked chunkBytes bytes).mapError .encoding

/-- A trouble with the list at `path`, as a failure to load it. Only a path that is none at all
stays what it is. -/
def loadTrouble (path : Path) : Trouble → Trouble
  | .disk problem p => .failure (.unreadable ⟨path.text, .disk problem p⟩)
  | .encoding fault => .failure (.unreadable ⟨path.text, .encoding fault⟩)
  | t => t

/-- The record made before a list is read. -/
def loading (path : Path) : Record :=
  ⟨Source.lexicon, Level.info, "Loading wordlist from: " ++ path.text⟩

/-- The text of a list as words, with the record of how many there are. -/
def ofText (path : Path) (marker : String) (text : List Char) :
    Logged (Except Trouble WordSet) :=
  let found := entries marker text
  let words : WordSet := Std.TreeSet.ofList found
  if found.isEmpty then return .error (.failure (.unreadable ⟨path.text, .noEntries⟩))
  else do
    Logged.note Source.lexicon Level.info
      ("Loaded " ++ toString found.length ++ " words (" ++ toString words.size ++
        " unique) from " ++ path.text)
    return .ok words

/-- Reads the word list at `path`, which must have an entry. The list is opened once its record has
been made. -/
def load (view : DiskView) (path : Path) (marker : String) :
    Logged (Except Trouble WordSet) := do
  let start := loading path
  Logged.note start.source start.level start.message
  match readText (view [start]) path.route with
  | .error t => return .error (loadTrouble path t)
  | .ok text => ofText path marker text

end WordSet

/-! ## Lexicons -/

/-- The three word lists. -/
structure Lexicon where
  cmavo : WordSet := ∅
  gismu : WordSet := ∅
  rafsi : WordSet := ∅

namespace Lexicon

/-- Whether a word is a particle or a content word. -/
def isKnown (lex : Lexicon) (word : String) : Bool :=
  lex.cmavo.contains word || lex.gismu.contains word

/-- Reads the three lists in order, up to the first that fails. -/
def load (view : DiskView) (s : Sources) : Logged (Except Trouble Lexicon) :=
  let cmavo := WordSet.load view s.cmavoPath s.marker
  match cmavo.value with
  | .error t => ⟨cmavo.records, .error t⟩
  | .ok cmavoWords =>
    let view := view.after cmavo.records
    let gismu := WordSet.load view s.gismuPath s.marker
    match gismu.value with
    | .error t => ⟨cmavo.records ++ gismu.records, .error t⟩
    | .ok gismuWords =>
      let rafsi := WordSet.load (view.after gismu.records) s.rafsiPath s.marker
      ⟨cmavo.records ++ gismu.records ++ rafsi.records,
        rafsi.value.map fun rafsiWords =>
          { cmavo := cmavoWords, gismu := gismuWords, rafsi := rafsiWords }⟩

end Lexicon

end Lojban
