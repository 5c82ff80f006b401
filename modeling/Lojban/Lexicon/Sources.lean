import Lojban.Journal
import Lojban.Path

/-!
# Where the word lists are

Three file names in one directory, and the marker that entries may start with. `Sources.ofVariables`
takes them from environment variables.
-/

namespace Lojban

/-- Where the word lists are. The file names are seen from the directory. -/
structure Sources where
  /-- Without one, the lists are the bundled ones. -/
  directory : Option String := none
  cmavoFile : String := "cmavo.txt"
  gismuFile : String := "gismu.txt"
  rafsiFile : String := "rafsi.txt"
  /-- What is taken off the front of an entry. -/
  marker : String := "."
deriving DecidableEq, Repr

/-- Environment variables by name. -/
abbrev Variables := List (String × String)

namespace Sources

/-- The path of the directory. -/
def directoryPath (s : Sources) : Path :=
  match s.directory with
  | some text => Path.ofString text
  | none => ⟨.bundled, []⟩

/-- The directory, as it was given. -/
def directoryText (s : Sources) : String :=
  s.directory.getD s.directoryPath.text

/-- The path of the list of particles. -/
def cmavoPath (s : Sources) : Path :=
  s.directoryPath.join s.cmavoFile

/-- The path of the list of content words. -/
def gismuPath (s : Sources) : Path :=
  s.directoryPath.join s.gismuFile

/-- The path of the list of combining forms. -/
def rafsiPath (s : Sources) : Path :=
  s.directoryPath.join s.rafsiFile

/-- The sources that the environment asks for. What it does not mention is bundled; an empty
directory counts as not mentioned, an empty file name does not. -/
def ofVariables (env : Variables) : Logged Sources :=
  let directory := (env.lookup "VALSI_WORDLIST_DIR").getD ""
  let sources : Sources := {
    directory := if directory = "" then none else some (Path.ofString directory).text
    cmavoFile := (env.lookup "VALSI_CMAVO_FILE").getD "cmavo.txt"
    gismuFile := (env.lookup "VALSI_GISMU_FILE").getD "gismu.txt"
    rafsiFile := (env.lookup "VALSI_RAFSI_FILE").getD "rafsi.txt" }
  if directory = "" then return sources
  else do
    Logged.note Source.sources Level.debug
      ("Wordlist directory overridden: " ++ sources.directoryText)
    return sources

end Sources

end Lojban
