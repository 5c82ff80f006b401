/-!
# Tokens

The language has two tokens: a word, which is a longest run of letters, and the mark `.i` that
separates sentences. Both may stand next to each other without a gap; a gap only matters between two
words. Scanning stops at the first character that starts no token.
-/

namespace Lojban

/-- A word where it stands: the index of its first character, and its letters. -/
structure Word where
  start : Nat
  letters : List Char
deriving DecidableEq, Repr

/-- The index behind the last letter. -/
def Word.stop (w : Word) : Nat :=
  w.start + w.letters.length

/-- A token and the index of its first character. -/
inductive Token where
  | word (w : Word)
  /-- The sentence mark `.i`. -/
  | mark (start : Nat)
  /-- A character that starts no token; it ends the scan. -/
  | stray (start : Nat) (c : Char)
deriving DecidableEq, Repr

namespace Token

/-- The white space of the language. -/
def isGap (c : Char) : Bool :=
  c == ' ' || c == '\t' || c == '\x0c' || c == '\r' || c == '\n'

/-- The letters of words: `a` to `z` and the apostrophe. -/
def isLetter (c : Char) : Bool :=
  ('a' ≤ c && c ≤ 'z') || c == '\''

/-- The tokens of a text whose first character has the index `start`. -/
def scan (start : Nat) : List Char → List Token
  | [] => []
  | c :: cs =>
    if isGap c then scan (start + 1) cs
    else if isLetter c then
      let more := cs.takeWhile isLetter
      .word ⟨start, c :: more⟩ :: scan (start + 1 + more.length) (cs.dropWhile isLetter)
    else if c = '.' ∧ cs.head? = some 'i' then
      .mark start :: scan (start + 2) (cs.drop 1)
    else [.stray start c]
termination_by cs => cs.length
decreasing_by
  · simp
  · have := (List.dropWhile_sublist (l := cs) isLetter).length_le
    simp only [List.length_cons]
    omega
  · simp only [List.length_cons, List.length_drop]
    omega

end Token

end Lojban
