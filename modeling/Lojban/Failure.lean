import Lojban.Diagnostic
import Lojban.Disk
import Lojban.Json
import Lojban.Text.Utf8

/-!
# Failures

A text is refused for one of three reasons: it is ungrammatical, one of its words is in no word
list, or a word list could not be read. `Failure` holds the reason, `Failure.message` says it in
words and `Failure.toJson` as a document.
-/

namespace Lojban

/-! ## Ungrammatical text -/

/-- A text that is no passage. Lines and columns count from one, `position` counts bytes. -/
structure SyntaxError where
  message : String
  line : Option Int := none
  column : Option Int := none
  position : Option Int := none
  token : Option String := none
  /-- The fault behind it, when it was found by reading a text. -/
  fault : Option Fault := none
deriving DecidableEq, Repr

namespace SyntaxError

/-- The bytes that the token takes up, when there is a token that takes up any. -/
def span (e : SyntaxError) : Option (Int × Int) :=
  match e.position, e.token with
  | some p, some t => if t = "" then none else some (p, p + t.utf8ByteSize)
  | _, _ => none

/-- Reports a fault of `text`. -/
def ofFault (text : List Char) (f : Fault) : SyntaxError where
  message := f.message text
  line := some (Text.lineAt text f.start)
  column := some (Text.columnAt text f.start)
  position := some ((Text.ByteIndex.of text).offset f.start)
  token := f.token?
  fault := some f

end SyntaxError

/-! ## Unknown words -/

/-- A word that is in no word list, with the bytes it takes up and what should have stood there. -/
structure UnknownWord where
  word : String
  span : Int × Int
  expected : String := "lojban word"
deriving DecidableEq, Repr

/-- A span in words. -/
def spanText (span : Int × Int) : String :=
  "(" ++ toString span.1 ++ ", " ++ toString span.2 ++ ")"

/-- The wording of an unknown word. -/
def UnknownWord.message (e : UnknownWord) : String :=
  "Invalid word '" ++ e.word ++ "' found at " ++ spanText e.span ++ ", expected a valid " ++
    e.expected

/-! ## Unreadable word lists -/

/-- Why a word list could not be read. -/
inductive LoadFault where
  | disk (problem : DiskProblem) (path : String)
  | encoding (fault : Text.Utf8.Fault)
  | noEntries
  /-- A reason given in words. -/
  | stated (reason : String)
deriving DecidableEq, Repr

/-- The wording of a reason. -/
def LoadFault.message : LoadFault → String
  | .disk problem path => (DiskError.problem problem path).message
  | .encoding fault => fault.message
  | .noEntries => "no entries found"
  | .stated reason => reason

/-- A word list that could not be read. -/
structure LoadError where
  path : String
  fault : LoadFault
deriving DecidableEq, Repr

/-- The wording of an unreadable word list. -/
def LoadError.message (e : LoadError) : String :=
  "Could not load wordlist " ++ e.path ++ ": " ++ e.fault.message

/-! ## All failures -/

/-- Why a text was refused. -/
inductive Failure where
  /-- A failure with no further classification. -/
  | plain (message : String) (token : Option String) (span : Option (Int × Int))
  | ungrammatical (e : SyntaxError)
  | unknownWord (e : UnknownWord)
  | unreadable (e : LoadError)
deriving DecidableEq, Repr

namespace Failure

/-- The kind of a failure, in one word. -/
def kind : Failure → String
  | plain .. => "error"
  | ungrammatical _ => "syntax"
  | unknownWord _ => "lexical"
  | unreadable _ => "load"

/-- A failure in words. -/
def message : Failure → String
  | plain message _ _ => message
  | ungrammatical e => e.message
  | unknownWord e => e.message
  | unreadable e => e.message

/-- A failure in words, as it is shown on its own. -/
def describe : Failure → String
  | ungrammatical e => "Syntax error: " ++ e.message
  | f => f.message

/-- What was found that should not be there. -/
def token : Failure → Option String
  | plain _ token _ => token
  | ungrammatical e => e.token
  | unknownWord e => some e.word
  | unreadable _ => none

/-- The bytes that the token takes up. -/
def span : Failure → Option (Int × Int)
  | plain _ _ span => span
  | ungrammatical e => e.span
  | unknownWord e => some e.span
  | unreadable _ => none

/-- A span as a document. -/
def spanJson : Option (Int × Int) → Json
  | none => .null
  | some (first, stop) => .list [.number first, .number stop]

/-- The fields that only this kind of failure has. -/
def extraFields : Failure → List (String × Json)
  | plain .. => []
  | ungrammatical e =>
    [("line", .ofInt? e.line), ("column", .ofInt? e.column), ("position", .ofInt? e.position)]
  | unknownWord e => [("expected_type", .text e.expected)]
  | unreadable e => [("path", .text e.path)]

/-- A failure as a document. -/
def toJson (f : Failure) : Json :=
  .record ([("kind", .text f.kind), ("message", .text f.message), ("token", .ofString? f.token),
    ("span", spanJson f.span)] ++ f.extraFields)

end Failure

/-! ## Troubles -/

/-- What can stop an operation: a failure, which is reported, or one of the troubles that nobody
expects and that end the run. -/
inductive Trouble where
  | failure (f : Failure)
  /-- A path with a NUL character. -/
  | nulInPath
  | disk (problem : DiskProblem) (path : String)
  | encoding (fault : Text.Utf8.Fault)
  /-- There is no more input to read. -/
  | noInput
deriving DecidableEq, Repr

/-- A disk error as a trouble. -/
def DiskError.trouble : DiskError → Trouble
  | .nul => .nulInPath
  | .problem p path => .disk p path

/-- The wording of a trouble. -/
def Trouble.message : Trouble → String
  | .failure f => f.describe
  | .nulInPath => DiskError.nul.message
  | .disk p path => (DiskError.problem p path).message
  | .encoding fault => fault.message
  | .noInput => "EOF when reading a line"

end Lojban
