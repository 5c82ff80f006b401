import Lojban.Path
import Lojban.Text.Quoted

/-!
# Disks

The files that a run can see, as a value. A location is the list of names that leads to it from the
root directory. Opening a file follows the names of a route one after the other; `DiskError` says at
which problem this stopped. `Disk.absolute` works a route out by its names alone.
-/

namespace Lojban

/-- The names that lead from the root directory to a place. -/
abbrev Location := List String

/-- Where the bundled word lists lie. The first name holds a slash, so no text leads there from the
root directory. -/
def bundledLocation : Location := ["/", "valsi", "data", "wordlists"]

/-- What stands at a location. -/
inductive Entry where
  | file (bytes : List UInt8)
  | directory
deriving DecidableEq, Repr

/-- Why a file cannot be opened. -/
inductive DiskProblem where
  | noEntry
  | notDirectory
  | isDirectory
  | nameTooLong
deriving DecidableEq, Repr

/-- The number by which the system knows a problem. -/
def DiskProblem.code : DiskProblem → Nat
  | .noEntry => 2
  | .notDirectory => 20
  | .isDirectory => 21
  | .nameTooLong => 36

/-- The wording of a problem. -/
def DiskProblem.message : DiskProblem → String
  | .noEntry => "No such file or directory"
  | .notDirectory => "Not a directory"
  | .isDirectory => "Is a directory"
  | .nameTooLong => "File name too long"

/-- Why a file was not opened. -/
inductive DiskError where
  /-- The route holds a NUL character, so it is none at all. -/
  | nul
  | problem (p : DiskProblem) (path : String)
deriving DecidableEq, Repr

/-- The wording of an error. -/
def DiskError.message : DiskError → String
  | .nul => "embedded null byte"
  | .problem p path =>
    "[Errno " ++ toString p.code ++ "] " ++ p.message ++ ": " ++ Text.quoted path

/-- The files of a run. -/
structure Disk where
  /-- What stands where; the first entry for a location counts. The root directory needs none. -/
  entries : List (Location × Entry) := []
  /-- Where relative paths start. -/
  home : Location := []
  /-- How that place is written. -/
  homeName : String := "/"
deriving Repr

namespace Disk

/-- What stands at a location. -/
def entryAt? (d : Disk) (loc : Location) : Option Entry :=
  if loc = [] then some .directory else d.entries.lookup loc

/-- Puts an entry at a location, in place of what stood there. -/
def put (d : Disk) (loc : Location) (e : Entry) : Disk :=
  { d with entries := (loc, e) :: d.entries.filter (·.1 ≠ loc) }

/-- What was put at a location stands there. -/
theorem entryAt?_put_self (d : Disk) {loc : Location} (h : loc ≠ []) (e : Entry) :
    (d.put loc e).entryAt? loc = some e := by
  simp [entryAt?, put, h]

/-- Removes what stands at a location. -/
def erase (d : Disk) (loc : Location) : Disk :=
  { d with entries := d.entries.filter (·.1 ≠ loc) }

/-! ## Following routes -/

/-- The longest name that a directory can hold, in bytes. -/
def maxNameBytes : Nat := 255

/-- The longest path that can be opened, in bytes. -/
def maxPathBytes : Nat := 4095

/-- Follows names from a location. Every name but the last must lead to a directory. -/
def follow (d : Disk) (loc : Location) : List String → Except DiskProblem Location
  | [] => .ok loc
  | name :: names =>
    match d.entryAt? loc with
    | none => .error .noEntry
    | some (.file _) => .error .notDirectory
    | some .directory =>
      if name = "" ∨ name = "." then d.follow loc names
      else if name = ".." then d.follow loc.dropLast names
      else if maxNameBytes < name.utf8ByteSize then .error .nameTooLong
      else d.follow (loc ++ [name]) names

/-- The location of a root. -/
def origin (d : Disk) : Root → Location
  | .none => d.home
  | .single | .double => []
  | .bundled => bundledLocation

/-- The location that a route leads to. Nothing need stand there, but the directory that would hold
it does. -/
def locate (d : Disk) (way : Route) : Except DiskError Location :=
  if way.text.contains '\x00' then .error .nul
  else if way.text = "" then .error (.problem .noEntry way.text)
  else if maxPathBytes < way.text.utf8ByteSize then .error (.problem .nameTooLong way.text)
  else (d.follow (d.origin way.root) way.names).mapError (.problem · way.text)

/-- The bytes of the file that a route leads to. -/
def read (d : Disk) (way : Route) : Except DiskError (List UInt8) :=
  match d.locate way with
  | .error e => .error e
  | .ok place =>
    match d.entryAt? place with
    | none => .error (.problem .noEntry way.text)
    | some .directory => .error (.problem .isDirectory way.text)
    | some (.file bytes) => .ok bytes

/-- Opens a file for appending, which makes an empty one where none was. -/
def openAppend (d : Disk) (way : Route) : Except DiskError (Location × Disk) :=
  match d.locate way with
  | .error e => .error e
  | .ok place =>
    match d.entryAt? place with
    | none => .ok (place, d.put place (.file []))
    | some .directory => .error (.problem .isDirectory way.text)
    | some (.file _) => .ok (place, d)

/-- Appends bytes to the file at a location. -/
def append (d : Disk) (loc : Location) (bytes : List UInt8) : Disk :=
  match d.entryAt? loc with
  | some (.file old) => d.put loc (.file (old ++ bytes))
  | _ => d

/-! ## Routes by name -/

/-- The location of a path by its names alone, whatever stands on the way: each `..` is taken
together with the name before it. -/
def placeOf (d : Disk) (p : Path) : Location :=
  Path.foldUp [] (d.origin p.root ++ p.names)

/-- How a location is written. What lies at or below the place where relative paths start has the
name of that place in front. -/
def locationText (d : Disk) (loc : Location) : String :=
  if d.home ≠ [] ∧ d.home.isPrefixOf loc then
    d.homeName ++ String.join ((loc.drop d.home.length).map ("/" ++ ·))
  else (⟨.single, loc⟩ : Path).text

/-- The route from the root directory to where a text leads by its names alone. -/
def absolute (d : Disk) (s : String) : Route :=
  let p := Path.ofString s
  let place := d.placeOf p
  match p.root with
  | .none => ⟨.single, place, d.locationText place⟩
  | root => (⟨root, place⟩ : Path).route

/-! ## Changes from outside -/

/-- Makes a directory and all directories that lead to it. -/
def makeDirectory (d : Disk) (loc : Location) : Disk :=
  (List.range (loc.length + 1)).foldl
    (fun d n =>
      match d.entryAt? (loc.take n) with
      | none => d.put (loc.take n) .directory
      | some _ => d)
    d

/-- Writes a file and makes the directories that lead to it. -/
def writeFile (d : Disk) (loc : Location) (bytes : List UInt8) : Disk :=
  (d.makeDirectory loc.dropLast).put loc (.file bytes)

/-- Deletes the file that a route leads to. -/
def delete (d : Disk) (way : Route) : Except DiskError Disk :=
  match d.locate way with
  | .error e => .error e
  | .ok place =>
    match d.entryAt? place with
    | none => .error (.problem .noEntry way.text)
    | some .directory => .error (.problem .isDirectory way.text)
    | some (.file _) => .ok (d.erase place)

end Disk

end Lojban
