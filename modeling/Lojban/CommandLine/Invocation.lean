import Lojban.CommandLine.Argument

/-!
# Invocations

The command line of the program: its pages, and the `Invocation` that a list of arguments stands
for. Switches of the program come before the command, those of the command behind it.
-/

namespace Lojban.CommandLine

/-! ## Switches -/

/-- Verbose logging. -/
def debugSwitch : Switch := { names := ["--debug"] }

/-- A file for the log. -/
def logFileSwitch : Switch := { names := ["--log-file"], takesValue := true }

/-- A file to read the text from. -/
def fileSwitch : Switch := { names := ["-f", "--file"], takesValue := true }

/-- How the tree is printed. -/
def formatSwitch : Switch :=
  { names := ["--format"], takesValue := true, choices := ["text", "json"] }

/-! ## Pages -/

/-- The commands by name. -/
def commandNames : List String := ["parse", "check", "info"]

/-- The usage line of the program. -/
def mainUsage : String :=
  "usage: valsi [-h] [--debug] [--log-file LOG_FILE] \x7bparse,check,info\x7d ...\n"

/-- The page of the program. -/
def mainPage : Page where
  program := "valsi"
  usage := mainUsage
  help := mainUsage ++
    "\nvalsi: Lojban parser with cmavo/gismu wordlist validation\n" ++
    "\npositional arguments:\n" ++
    "  \x7bparse,check,info\x7d   Available commands\n" ++
    "    parse              Parse and validate Lojban text\n" ++
    "    check              Validate a file line by line\n" ++
    "    info               Display wordlist information\n" ++
    "\noptions:\n" ++
    "  -h, --help           show this help message and exit\n" ++
    "  --debug              Verbose logging\n" ++
    "  --log-file LOG_FILE  Also append log records to this file\n" ++
    "\nExamples:\n" ++
    "  valsi parse \"mi klama le zarci\"\n" ++
    "  valsi parse --file input.txt --format json\n" ++
    "  valsi check corpus.txt\n" ++
    "  valsi info\n" ++
    "\nWordlists come from the bundled data unless VALSI_WORDLIST_DIR is set.\n" ++
    "        \n"
  switches := [helpSwitch, debugSwitch, logFileSwitch]
  operand := .command "command" commandNames

/-- The usage line of `parse`. -/
def parseUsage : String :=
  "usage: valsi parse [-h] [-f FILE] [--format \x7btext,json\x7d] [text]\n"

/-- The page of `parse`. -/
def parsePage : Page where
  program := "valsi parse"
  usage := parseUsage
  help := parseUsage ++
    "\npositional arguments:\n" ++
    "  text                  Lojban text to parse\n" ++
    "\noptions:\n" ++
    "  -h, --help            show this help message and exit\n" ++
    "  -f FILE, --file FILE  Read input from file\n" ++
    "  --format \x7btext,json\x7d  Output format (default: text)\n"
  switches := [helpSwitch, fileSwitch, formatSwitch]
  operand := .optional

/-- The usage line of `check`. -/
def checkUsage : String := "usage: valsi check [-h] file\n"

/-- The page of `check`. -/
def checkPage : Page where
  program := "valsi check"
  usage := checkUsage
  help := checkUsage ++
    "\npositional arguments:\n" ++
    "  file        Path to a text file, one text per line\n" ++
    "\noptions:\n" ++
    "  -h, --help  show this help message and exit\n"
  switches := [helpSwitch]
  operand := .required "file"

/-- The usage line of `info`. -/
def infoUsage : String := "usage: valsi info [-h]\n"

/-- The page of `info`. -/
def infoPage : Page where
  program := "valsi info"
  usage := infoUsage
  help := infoUsage ++
    "\noptions:\n" ++
    "  -h, --help  show this help message and exit\n"
  switches := [helpSwitch]
  operand := .none

/-! ## Invocations -/

/-- How a tree is printed. -/
inductive Format where
  | text
  | json
deriving DecidableEq, Repr

/-- What the program is asked to do. -/
inductive Command where
  /-- Read one text: the argument, or else a file, or else a line of input. -/
  | parse (text file : Option String) (format : Format)
  /-- Read a file line by line. -/
  | check (file : String)
  /-- Tell about the word lists. -/
  | info
deriving DecidableEq, Repr

/-- A command with the settings of the program. -/
structure Invocation where
  debug : Bool
  logFile : Option String
  /-- There may be none. -/
  command : Option Command
deriving DecidableEq, Repr

/-- Whether a switch was used. -/
def Findings.has (f : Findings) (s : Switch) : Bool :=
  f.settings.any (·.switch = s)

/-- The value that a switch was given last. -/
def Findings.value? (f : Findings) (s : Switch) : Option String :=
  (f.settings.reverse.find? (·.switch = s)).bind (·.value)

/-- The format of a given name. -/
def formatOf (name : Option String) : Format :=
  if name = some "json" then .json else .text

/-- The command called `name`, with the words behind it. Gives its extra words as well. -/
def commandOf (name : String) (words : List String) : Except Stop (Command × List String) :=
  if name = "parse" then do
    let f ← find parsePage words
    let format := formatOf (f.value? formatSwitch)
    return (.parse f.operand (f.value? fileSwitch) format, f.extras)
  else if name = "check" then do
    let f ← find checkPage words
    return (.check (f.operand.getD ""), f.extras)
  else do
    let f ← find infoPage words
    return (.info, f.extras)

/-- The invocation that a list of arguments stands for. No word may be left over. -/
def Invocation.ofArguments (words : List String) : Except Stop Invocation := do
  let f ← find mainPage words
  let (command, extras) ← match f.operand with
    | none => pure (none, [])
    | some name => do
      let (command, extras) ← commandOf name f.rest
      pure (some command, extras)
  let extras := f.extras ++ extras
  if extras.isEmpty then
    return { debug := f.has debugSwitch, logFile := f.value? logFileSwitch, command }
  else .error (.complaint mainPage (.unrecognized extras))

end Lojban.CommandLine
