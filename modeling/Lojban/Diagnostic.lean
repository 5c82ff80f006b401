import Lojban.Passage
import Lojban.Text.Index
import Lojban.Text.Position
import Lojban.Text.Quoted

/-!
# Diagnostics

How a fault is put into words: where it is, what was found there, what could have stood there
instead, and what was read before. A stray character is also shown in its line, with a caret under
it.
-/

namespace Lojban

/-- The name of the word token in diagnostics. -/
def wordName : String := "WORD"

/-- The name of the sentence mark in diagnostics. -/
def markName : String := "_SENTENCE_SEP"

/-- A token in diagnostics: its name and its quoted text. -/
def tokenText (name text : String) : String :=
  "Token('" ++ name ++ "', " ++ Text.quoted text ++ ")"

/-- The sentence mark in diagnostics. -/
def markText : String :=
  tokenText markName ".i"

namespace Before

/-- The index at which the last token starts, or else the start of the text. -/
def place : Before → Nat
  | start => 0
  | mark i => i
  | word w => w.start

/-- The last token in diagnostics, if there is one. -/
def tokenText? : Before → Option String
  | start => none
  | mark _ => some markText
  | word w => some (tokenText wordName (String.ofList w.letters))

/-- The tokens that may come next, by name. -/
def expected : Before → List String
  | word _ => [wordName, markName]
  | _ => [wordName]

end Before

/-- A list of token names, one a line. -/
def expectedText (names : List String) : String :=
  "Expected one of: \n" ++ String.join (names.map fun name => "\t* " ++ name ++ "\n")

/-- How many characters before and behind a stray character are shown. -/
def contextSize : Nat := 40

/-- The line around the character index `i`, as far as it lies within `contextSize` characters, and
below it a caret under the character. -/
def contextText (text : List Char) (i : Nat) : String :=
  let before := Text.lastLine (Text.slice text (i - contextSize) i)
  let after := ((text.drop i).take contextSize).takeWhile (· ≠ '\n')
  String.ofList (before ++ after ++ '\n' :: List.replicate (Text.tabbedWidth before) ' ' ++
    ['^', '\n'])

namespace Fault

/-- The character index that a fault is reported at. A missing word is reported at the last token,
or at the start of a text without tokens. -/
def start : Fault → Nat
  | missingWord before => before.place
  | misplacedMark i _ => i
  | strayChar i _ _ => i

/-- What was found instead of what was expected; nothing at the end of the text. -/
def token? : Fault → Option String
  | missingWord _ => none
  | misplacedMark _ _ => some ".i"
  | strayChar _ c _ => some (String.singleton c)

/-- A fault of `text` in words. -/
def message (text : List Char) (f : Fault) : String :=
  let line := toString (Text.lineAt text f.start)
  let column := toString (Text.columnAt text f.start)
  let place := " at line " ++ line ++ ", column " ++ column ++ ".\n"
  match f with
  | missingWord _ =>
    "Unexpected token " ++ tokenText "$END" "" ++ place ++ expectedText [wordName]
  | misplacedMark _ before =>
    "Unexpected token " ++ markText ++ place ++ expectedText [wordName] ++
      "Previous tokens: [" ++ before.tokenText?.getD "None" ++ "]\n"
  | strayChar i c before =>
    "No terminal matches '" ++ String.singleton c ++ "' in the current parser context, at line " ++
      line ++ " col " ++ column ++ "\n\n" ++ contextText text i ++
      expectedText before.expected ++
      match before.tokenText? with
      | none => ""
      | some token => "\nPrevious tokens: " ++ token ++ "\n"

end Fault

end Lojban
