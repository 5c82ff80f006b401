import Lojban.Json
import Lojban.Text.Index

/-!
# Trees

A tree describes a text: its root stands for the text, the root's children for the sentences and
theirs for the words. Each node keeps the characters it stands for and the byte offsets between
which they lie.

The operations here work on every tree, whatever its shape: `walk` and `words` list nodes, `outline`
and `toJson` write a tree down, `firstUnknown?` looks for a word outside a vocabulary.
-/

namespace Lojban

/-- The names of the tags that have a meaning. -/
def Tag.ownNames : List String :=
  ["text", "sentence", "word"]

/-- What a node stands for. A tree made elsewhere may carry tags with no meaning here; they are
walked through and cannot be written down. -/
inductive Tag where
  | text
  | sentence
  | word
  | other (name : String) (foreign : name ∉ Tag.ownNames)
deriving DecidableEq, Repr

/-- The name of a tag. -/
def Tag.name : Tag → String
  | .text => "text"
  | .sentence => "sentence"
  | .word => "word"
  | .other name _ => name

/-- The tag with a given name. -/
def Tag.ofName (name : String) : Tag :=
  if htext : name = "text" then .text
  else if hsentence : name = "sentence" then .sentence
  else if hword : name = "word" then .word
  else .other name (by simp [ownNames, htext, hsentence, hword])

/-- The tags that have a meaning. -/
def Tag.isOwn : Tag → Bool
  | .other _ _ => false
  | _ => true

/-- A node with the trees below it. -/
inductive Tree where
  | node (tag : Tag) (text : String) (start stop : Int) (children : List Tree)
deriving Repr

instance : Inhabited Tree := ⟨.node .text "" 0 0 []⟩

namespace Tree

/-- What the root stands for. -/
def tag : Tree → Tag
  | node tag _ _ _ _ => tag

/-- The characters of the root. -/
def text : Tree → String
  | node _ text _ _ _ => text

/-- The byte offset at which the root starts. -/
def start : Tree → Int
  | node _ _ start _ _ => start

/-- The byte offset at which the root ends. -/
def stop : Tree → Int
  | node _ _ _ stop _ => stop

/-- The byte offsets between which the root lies. -/
def span (t : Tree) : Int × Int :=
  (t.start, t.stop)

/-- The trees below the root. -/
def children : Tree → List Tree
  | node _ _ _ _ children => children

/-- Whether the root is a word. -/
def isWord (t : Tree) : Bool :=
  t.tag = .word

/-! ## Listing nodes -/

mutual
/-- All nodes, each before the nodes below it, and from left to right. -/
def walk : Tree → List Tree
  | node tag text start stop children =>
    node tag text start stop children :: walkAll children

/-- All nodes of some trees, tree by tree. -/
def walkAll : List Tree → List Tree
  | [] => []
  | t :: ts => walk t ++ walkAll ts
end

/-- The words from left to right. -/
def words (t : Tree) : List String :=
  (t.walk.filter isWord).map text

/-- Every tag has a meaning. -/
def isOwn (t : Tree) : Bool :=
  t.walk.all fun n => n.tag.isOwn

/-- The character indices that the root takes up in `source`. The start is found by its byte offset
and must not lie inside a character; the length is that of the root's own text. -/
def charSpan (source : String) (t : Tree) : Except Text.Utf8.Fault (Nat × Nat) :=
  (Text.charsBefore source.toList t.start).map fun first => (first, first + t.text.length)

/-! ## Writing trees down -/

mutual
/-- A tree as a document. A node without children has no field for them. -/
def toJson : Tree → Json
  | node tag text start stop [] =>
    .record [("rule", .text tag.name), ("text", .text text),
      ("span", .list [.number start, .number stop])]
  | node tag text start stop (c :: cs) =>
    .record [("rule", .text tag.name), ("text", .text text),
      ("span", .list [.number start, .number stop]), ("children", .list (toJsonAll (c :: cs)))]

/-- Trees as documents. -/
def toJsonAll : List Tree → List Json
  | [] => []
  | t :: ts => toJson t :: toJsonAll ts
end

/-- The line that shows a node without what is below it. Only words show their text. -/
def label (t : Tree) : String :=
  t.tag.name ++ " " ++ toString t.start ++ ".." ++ toString t.stop ++
    (if t.isWord then " '" ++ t.text ++ "'" else "")

mutual
/-- One line per node in the order of `walk`, indented once for each level. -/
def outlineLines (indent : String) (depth : Nat) : Tree → List String
  | node tag text start stop children =>
    (String.join (List.replicate depth indent) ++ label (node tag text start stop children)) ::
      outlineLinesAll indent (depth + 1) children

/-- The lines of some trees, tree by tree. -/
def outlineLinesAll (indent : String) (depth : Nat) : List Tree → List String
  | [] => []
  | t :: ts => outlineLines indent depth t ++ outlineLinesAll indent depth ts
end

/-- The lines of a tree as one text. -/
def outline (t : Tree) (indent : String := "  ") : String :=
  "\n".intercalate (outlineLines indent 0 t)

/-- The document of a tree whose tags all have a meaning. -/
def toJson? (t : Tree) : Option Json :=
  if t.isOwn then some t.toJson else none

/-- The outline of a tree whose tags all have a meaning. -/
def outline? (t : Tree) (indent : String := "  ") : Option String :=
  if t.isOwn then some (t.outline indent) else none

/-! ## Checking words -/

mutual
/-- The first word, from left to right, that is not `known`. What lies below a word is not looked
at. -/
def firstUnknown? (known : String → Bool) : Tree → Option Tree
  | node tag text start stop children =>
    if tag = .word then
      if known text then none else some (node tag text start stop children)
    else firstUnknownAll? known children

/-- The first unknown word of some trees, tree by tree. -/
def firstUnknownAll? (known : String → Bool) : List Tree → Option Tree
  | [] => none
  | t :: ts => (firstUnknown? known t).or (firstUnknownAll? known ts)
end

end Tree

end Lojban
