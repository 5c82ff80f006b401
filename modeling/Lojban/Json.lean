import Lojban.Text.Quoted

/-!
# JSON documents

The values that trees and failures are reported as, and their text: every element and every field on
a line of its own, indented by two spaces a level, with no spaces at the line ends. Characters
outside ASCII are written as they are.
-/

namespace Lojban

/-- A JSON value. The fields of a record keep their order. -/
inductive Json where
  | null
  | number (n : Int)
  | text (s : String)
  | list (items : List Json)
  | record (fields : List (String × Json))
deriving Repr

namespace Json

/-- A number, or null where there is none. -/
def ofInt? : Option Int → Json
  | none => null
  | some n => number n

/-- A text, or null where there is none. -/
def ofString? : Option String → Json
  | none => null
  | some s => text s

/-! ## Text -/

/-- One character of a string. -/
def escapedChar (c : Char) : List Char :=
  if c = '"' ∨ c = '\\' then ['\\', c]
  else if c = '\n' then ['\\', 'n']
  else if c = '\r' then ['\\', 'r']
  else if c = '\t' then ['\\', 't']
  else if c = '\x0c' then ['\\', 'f']
  else if c = '\x08' then ['\\', 'b']
  else if c.toNat < 0x20 then '\\' :: 'u' :: Text.hexDigits 4 c.toNat
  else [c]

/-- A string with its quotes. -/
def stringText (s : String) : List Char :=
  '"' :: s.toList.flatMap escapedChar ++ ['"']

/-- The start of a line at `depth`. -/
def lineStart (depth : Nat) : List Char :=
  '\n' :: List.replicate (2 * depth) ' '

mutual
/-- The text of a value that starts in a line at `depth`. -/
def chars (depth : Nat) : Json → List Char
  | null => "null".toList
  | number n => (toString n).toList
  | text s => stringText s
  | list [] => ['[', ']']
  | list (x :: xs) =>
    '[' :: lineStart (depth + 1) ++ itemChars (depth + 1) (x :: xs) ++ lineStart depth ++ [']']
  | record [] => ['\x7b', '\x7d']
  | record (f :: fs) =>
    '\x7b' :: lineStart (depth + 1) ++ fieldChars (depth + 1) (f :: fs) ++ lineStart depth ++
      ['\x7d']

/-- The elements of a list, one a line. -/
def itemChars (depth : Nat) : List Json → List Char
  | [] => []
  | [x] => chars depth x
  | x :: xs => chars depth x ++ ',' :: lineStart depth ++ itemChars depth xs

/-- The fields of a record, one a line. -/
def fieldChars (depth : Nat) : List (String × Json) → List Char
  | [] => []
  | [(k, v)] => stringText k ++ ':' :: ' ' :: chars depth v
  | (k, v) :: fs =>
    stringText k ++ ':' :: ' ' :: chars depth v ++ ',' :: lineStart depth ++ fieldChars depth fs
end

/-- The text of a document. -/
def render (j : Json) : String :=
  String.ofList (chars 0 j)

end Json

end Lojban
