import Lojban.Failure
import Lojban.Passage
import Lojban.Tree

/-!
# The tree of a text

A text is scanned into tokens, the tokens are read as a passage, and the passage is laid out as a
tree with the byte offsets of its parts.
-/

namespace Lojban

/-- The node of a word. -/
def Word.toTree (x : Text.ByteIndex) (w : Word) : Tree :=
  .node .word (String.ofList w.letters) (x.offset w.start) (x.offset w.stop) []

/-- The node that stands for the characters from `start` to `stop`. -/
def compositeNode (x : Text.ByteIndex) (tag : Tag) (start stop : Nat) (children : List Tree) :
    Tree :=
  .node tag (String.ofList (Text.slice x.text start stop)) (x.offset start) (x.offset stop) children

/-- The node of a sentence, over those of its words. -/
def Sentence.toTree (x : Text.ByteIndex) (s : Sentence) : Tree :=
  compositeNode x .sentence s.start s.stop (s.words.map (Word.toTree x))

/-- The node of a passage, over those of its sentences. -/
def Passage.toTree (x : Text.ByteIndex) (p : Passage) : Tree :=
  compositeNode x .text p.start p.stop (p.sentences.map (Sentence.toTree x))

/-- Reads a text as a passage. -/
def Passage.ofText (text : List Char) : Except Fault Passage :=
  Passage.ofTokens (Token.scan 0 text)

/-- The tree of a text. -/
def Tree.ofText (text : String) : Except SyntaxError Tree :=
  match Passage.ofText text.toList with
  | .ok p => .ok (p.toTree (.of text.toList))
  | .error f => .error (.ofFault text.toList f)

end Lojban
