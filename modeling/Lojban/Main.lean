import Lojban.Command
import Lojban.Lexicon.Bundled

/-!
# The program

The outer layer of the command line: it copies what a run may look at into a session, carries the
run out, and writes what came of it. The names of the files are known beforehand, since they are all
given by the arguments and the environment.
-/

namespace Lojban.Program

open CommandLine

/-- The environment variables that are looked at. -/
def variableNames : List String :=
  ["VALSI_WORDLIST_DIR", "VALSI_CMAVO_FILE", "VALSI_GISMU_FILE", "VALSI_RAFSI_FILE"]

/-- The variables that are set. -/
def readVariables : IO Variables :=
  variableNames.filterMapM fun name => do
    return (← IO.getEnv name).map (name, ·)

/-- The paths that an invocation may open. -/
def pathsOf (invocation : Invocation) (sources : Sources) : List Path :=
  let inputs := match invocation.command with
    | some (.parse _ (some file) _) => [file]
    | some (.check file) => [file]
    | _ => []
  [sources.cmavoPath, sources.gismuPath, sources.rafsiPath] ++
    (inputs ++ invocation.logFile.toList).map Path.ofString

/-- Copies what stands at `path`, if anything does. -/
def copyEntry (d : Disk) (path : Path) : IO Disk := do
  try
    if ← (← IO.FS.realPath path.text).isDir then
      return d.makeDirectory (d.placeOf path)
    else
      return d.writeFile (d.placeOf path) (← IO.FS.readBinFile path.text).toList
  catch _ =>
    return d

/-- Copies what stands at `path` and at the directories on the way to it. The bundled lists are there
already. -/
def copyPath (d : Disk) (path : Path) : IO Disk :=
  if path.root = .bundled then return d
  else
    (List.range (path.names.length + 1)).foldlM
      (fun d n => copyEntry d { path with names := path.names.take n }) d

/-- A session that sees the files of an invocation. -/
def openSession (arguments : List String) : IO Session := do
  let env ← readVariables
  let here := Path.ofString (← IO.currentDir).toString
  let start : Disk := { home := here.names, homeName := here.text }
  let d := (start.makeDirectory here.names).withBundled
  let disk ← match Invocation.ofArguments arguments with
    | .error _ => pure d
    | .ok invocation =>
      (pathsOf invocation (Sources.ofVariables env).value).foldlM copyPath d
  return { disk, env }

/-- Writes the log file of an invocation back. -/
def saveLog (arguments : List String) (s : Session) : IO Unit := do
  if let .ok { logFile := some file, command := some _, .. } := Invocation.ofArguments arguments then
    let way := s.disk.absolute file
    if file ≠ "" then
      if let .ok bytes := s.disk.read way then
        IO.FS.writeBinFile way.text (ByteArray.mk bytes.toArray)

/-- Ends the program: what is printed behind the first `shown` characters, the log, the status. -/
def finish (arguments : List String) (shown : Nat) (result : Except Trouble Status) (s : Session) :
    IO UInt32 := do
  IO.print (String.ofList (s.stdout.toList.drop shown))
  IO.eprint s.stderr
  saveLog arguments s
  match result with
  | .ok status => return UInt32.ofNat status
  | .error t =>
    IO.eprintln t.message
    return 1

end Lojban.Program

open Lojban Lojban.Program

/-- Runs the program. A run that asks for input is carried out again once a line has been read. -/
def main (arguments : List String) : IO UInt32 := do
  let start ← openSession arguments
  match (Command.main arguments).run.run start with
  | (.error .noInput, asked) =>
    IO.print asked.stdout
    (← IO.getStdout).flush
    let line ← (← IO.getStdin).getLine
    let (result, s) := (Command.main arguments).run.run { start with stdin := line }
    finish arguments asked.stdout.length result s
  | (result, s) => finish arguments 0 result s
