import Lojban.Token

/-!
# Passages

A passage is one sentence or more, with a mark between each two; a sentence is one word or more.
`Passage.ofTokens` reads a passage from tokens. It stands in one of two places: where a word has to
come, at the start or behind a mark, or behind a word, where anything may come. The first token that
does not fit is the `Fault`.
-/

namespace Lojban

/-- One word or more. -/
structure Sentence where
  first : Word
  more : List Word
deriving DecidableEq, Repr

/-- The words in order. -/
def Sentence.words (s : Sentence) : List Word :=
  s.first :: s.more

/-- The index of the first character. -/
def Sentence.start (s : Sentence) : Nat :=
  s.first.start

/-- The index behind the last character. -/
def Sentence.stop (s : Sentence) : Nat :=
  (s.more.getLastD s.first).stop

/-- One sentence or more. -/
structure Passage where
  first : Sentence
  more : List Sentence
deriving DecidableEq, Repr

namespace Passage

/-- The sentences in order. -/
def sentences (p : Passage) : List Sentence :=
  p.first :: p.more

/-- The index of the first character. -/
def start (p : Passage) : Nat :=
  p.first.start

/-- The index behind the last character. -/
def stop (p : Passage) : Nat :=
  (p.more.getLastD p.first).stop

/-- A passage with one more word at its front, in its first sentence. -/
def consWord (w : Word) (p : Passage) : Passage :=
  ⟨⟨w, p.first.words⟩, p.more⟩

/-- A passage with one more sentence at its front, of a single word. -/
def consSentence (w : Word) (p : Passage) : Passage :=
  ⟨⟨w, []⟩, p.sentences⟩

end Passage

/-! ## Faults -/

/-- What was read last. -/
inductive Before where
  | start
  | mark (start : Nat)
  | word (w : Word)
deriving DecidableEq, Repr

/-- Why tokens do not make a passage. -/
inductive Fault where
  /-- The text ends where a word has to come. -/
  | missingWord (before : Before)
  /-- A mark where a word has to come. -/
  | misplacedMark (start : Nat) (before : Before)
  /-- A character that starts no token. -/
  | strayChar (start : Nat) (c : Char) (before : Before)
deriving DecidableEq, Repr

/-! ## Reading -/

namespace Passage

mutual
/-- Reads on where a word has to come. -/
def ofTokensFrom (before : Before) : List Token → Except Fault Passage
  | [] => .error (.missingWord before)
  | .word w :: ts => ofTokensBehind w ts
  | .mark start :: _ => .error (.misplacedMark start before)
  | .stray start c :: _ => .error (.strayChar start c before)

/-- Reads on behind the word `w`, which the passage starts with. -/
def ofTokensBehind (w : Word) : List Token → Except Fault Passage
  | [] => .ok ⟨⟨w, []⟩, []⟩
  | .word v :: ts => (ofTokensBehind v ts).map (consWord w)
  | .mark start :: ts => (ofTokensFrom (.mark start) ts).map (consSentence w)
  | .stray start c :: _ => .error (.strayChar start c (.word w))
end

/-- Reads a passage that takes up all tokens. -/
def ofTokens (ts : List Token) : Except Fault Passage :=
  ofTokensFrom .start ts

end Passage

end Lojban
