/-!
# Paths

A path is a root and a list of names. `Path.ofString` reads one and `Path.text` writes it: repeated
and final slashes and the name `.` disappear, `..` stays. Exactly two slashes at the front are a
root of their own, any other number is the common root. Joining with an absolute path gives that
path. The directory of the bundled word lists is a root that no text stands for.

A `Route` is the way to a file as it was asked for, in normal form or not.
-/

namespace Lojban

/-- What stands before the names. -/
inductive Root where
  /-- Nothing: the path is relative. -/
  | none
  /-- One slash. -/
  | single
  /-- Two slashes. -/
  | double
  /-- The directory of the bundled word lists. -/
  | bundled
deriving DecidableEq, Repr

namespace Root

/-- A root without names behind it. -/
def alone : Root → String
  | .none => "."
  | .single => "/"
  | .double => "//"
  | .bundled => "<BUNDLED>"

/-- A root in front of names. -/
def lead : Root → String
  | .none => ""
  | .single => "/"
  | .double => "//"
  | .bundled => "<BUNDLED>/"

end Root

/-- A path in normal form. -/
structure Path where
  root : Root
  names : List String
deriving DecidableEq, Repr

namespace Path

/-- The parts of a text between slashes; some may be empty. -/
def parts : List Char → List (List Char)
  | [] => [[]]
  | c :: cs =>
    if c = '/' then [] :: parts cs
    else match parts cs with
      | [] => [[c]]
      | p :: ps => (c :: p) :: ps

/-- The root that a text starts with. -/
def rootOf (cs : List Char) : Root :=
  match (cs.takeWhile (· = '/')).length with
  | 0 => .none
  | 2 => .double
  | _ => .single

/-- No text stands for the directory of the bundled word lists. -/
theorem rootOf_ne_bundled (cs : List Char) : rootOf cs ≠ .bundled := by
  unfold rootOf
  split <;> simp

/-- Whether a part names something: the empty part and `.` do not. -/
def isName (name : String) : Bool :=
  name ≠ "" && name ≠ "."

/-- Reads a path. -/
def ofString (s : String) : Path :=
  ⟨rootOf s.toList, ((parts s.toList).map String.ofList).filter isName⟩

/-- Writes a path; the empty path is `.`. -/
def text (p : Path) : String :=
  if p.names = [] then p.root.alone else p.root.lead ++ "/".intercalate p.names

/-- The path `s` as seen from `p`. -/
def join (p : Path) (s : String) : Path :=
  let q := ofString s
  if q.root = .none then ⟨p.root, p.names ++ q.names⟩ else q

/-- The names of an absolute path with each `..` taken together with the name before it; a `..` with
none before it disappears. `seen` holds the names so far, the last one first. -/
def foldUp (seen : List String) : List String → List String
  | [] => seen.reverse
  | name :: names => foldUp (if name = ".." then seen.drop 1 else name :: seen) names

end Path

/-- The way to a file. -/
structure Route where
  root : Root
  /-- The names to follow; the empty one and `.` stay in place, but only in a directory. -/
  names : List String
  /-- The words in which it was asked for. -/
  text : String
deriving DecidableEq, Repr

/-- The way that a text describes, slash by slash. -/
def Route.ofString (s : String) : Route :=
  ⟨Path.rootOf s.toList, (Path.parts s.toList).map String.ofList, s⟩

/-- The way that a path describes. -/
def Path.route (p : Path) : Route :=
  ⟨p.root, p.names, p.text⟩

end Lojban
