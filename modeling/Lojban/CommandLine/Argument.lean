import Lojban.Text.Digit
import Lojban.Text.Quoted

/-!
# Arguments

How the words of a command line are told apart and used up, for any command. A `Page` lists the
switches a command knows and the operand it takes. `classify` decides which words are switches, and
`consume` goes through them from left to right and gathers the `Findings`.

A switch may be shortened as long as it stays unique, its value may be attached to it, and short
switches may be written in one word. Words behind `--` are never switches.
-/

namespace Lojban.CommandLine

/-- A switch: its names, and whether it takes a value and which. -/
structure Switch where
  names : List String
  takesValue : Bool := false
  /-- The values it takes; any value if the list is empty. -/
  choices : List String := []
deriving DecidableEq, Repr

/-- A switch in messages. -/
def Switch.label (s : Switch) : String :=
  "/".intercalate s.names

/-- The switch that every command has. -/
def helpSwitch : Switch := { names := ["-h", "--help"] }

/-- What a command takes besides switches. -/
inductive Operand where
  /-- Nothing. -/
  | none
  /-- One word or none. -/
  | optional
  /-- One word, with its name. -/
  | required (name : String)
  /-- A word out of `choices`, and all the words behind it. -/
  | command (name : String) (choices : List String)
deriving DecidableEq, Repr

/-- What a command understands, and how it explains itself. -/
structure Page where
  program : String
  usage : String
  help : String
  switches : List Switch
  operand : Operand
deriving Repr

/-- The switches of a page by name, in order. -/
def Page.named (p : Page) : List (String × Switch) :=
  p.switches.flatMap fun s => s.names.map fun name => (name, s)

/-! ## Complaints -/

/-- What is wrong with a command line. -/
inductive Complaint where
  | ambiguous (word : String) (candidates : List String)
  /-- A value for a switch that takes none. -/
  | unwantedValue (label value : String)
  | missingValue (label : String)
  | invalidChoice (label value : String) (choices : List String)
  | missingOperand (name : String)
  | unrecognized (words : List String)
deriving DecidableEq, Repr

/-- The wording of a complaint. -/
def Complaint.message : Complaint → String
  | ambiguous word candidates =>
    "ambiguous option: " ++ word ++ " could match " ++ ", ".intercalate candidates
  | unwantedValue label value =>
    "argument " ++ label ++ ": ignored explicit argument " ++ Text.quoted value
  | missingValue label => "argument " ++ label ++ ": expected one argument"
  | invalidChoice label value choices =>
    "argument " ++ label ++ ": invalid choice: " ++ Text.quoted value ++ " (choose from " ++
      ", ".intercalate (choices.map Text.quoted) ++ ")"
  | missingOperand name => "the following arguments are required: " ++ name
  | unrecognized words => "unrecognized arguments: " ++ " ".intercalate words

/-- Why a command line is not carried out. -/
inductive Stop where
  /-- Its explanation was asked for. -/
  | help (page : Page)
  | complaint (page : Page) (c : Complaint)

/-! ## Telling words apart -/

/-- What a word is. -/
inductive Piece where
  | plain
  /-- The word `--`. -/
  | dashes
  /-- A switch under one of its names, with what is attached to it in the same word. -/
  | switch (s : Switch) (name : String) (value : Option (List Char))
  /-- A word that looks like a switch and is none. -/
  | unknown
deriving DecidableEq, Repr

/-- Whether a word is a negative number, possibly with a decimal point. One line feed may follow
it. -/
def isNegativeNumber (cs : List Char) : Bool :=
  match cs with
  | '-' :: rest =>
    let body := if rest.getLast? = some '\n' then rest.dropLast else rest
    match body.dropWhile Text.isDigit with
    | [] => !body.isEmpty
    | '.' :: decimals => !decimals.isEmpty && decimals.all Text.isDigit
    | _ => false
  | _ => false

/-- The part of a word before its first equals sign, and the part behind it. -/
def splitSign (cs : List Char) : List Char × Option (List Char) :=
  match cs.dropWhile (· ≠ '=') with
  | [] => (cs, none)
  | _ :: value => (cs.takeWhile (· ≠ '='), some value)

/-- What `word` may stand for as a switch that is not written out in full. -/
def candidates (p : Page) (word : List Char) :
    List (Switch × String × Option (List Char)) :=
  if ['-', '-'].isPrefixOf word then
    let (stem, value) := splitSign word
    p.named.filterMap fun (name, s) =>
      if stem.isPrefixOf name.toList then some (s, name, value) else none
  else
    p.named.filterMap fun (name, s) =>
      if name.toList = word.take 2 then some (s, name, some (word.drop 2))
      else if word.isPrefixOf name.toList then some (s, name, none)
      else none

/-- What a word is that does not stand behind `--`. -/
def classifyWord (p : Page) (word : String) : Except Complaint Piece :=
  let cs := word.toList
  if cs.head? ≠ some '-' then .ok .plain
  else match p.named.lookup word with
    | some s => .ok (.switch s word none)
    | none =>
      if cs = ['-'] then .ok .plain
      else
        let (stem, value) := splitSign cs
        match value, p.named.lookup (String.ofList stem) with
        | some v, some s => .ok (.switch s (String.ofList stem) (some v))
        | _, _ =>
          match candidates p cs with
          | [(s, name, v)] => .ok (.switch s name v)
          | [] =>
            if isNegativeNumber cs || cs.contains ' ' then .ok .plain else .ok .unknown
          | several => .error (.ambiguous word (several.map (·.2.1)))

/-- What each word is. -/
def classify (p : Page) : List String → Except Complaint (List (String × Piece))
  | [] => .ok []
  | word :: words =>
    if word = "--" then .ok ((word, .dashes) :: words.map (·, .plain))
    else do
      let piece ← classifyWord p word
      return (word, piece) :: (← classify p words)

/-! ## Using words up -/

/-- A switch that was used, with its value. It has none if it takes none, and also if the value given
is `--`. -/
structure Setting where
  switch : Switch
  value : Option String := none
deriving DecidableEq, Repr

/-- The setting of a switch to the value in the same word. -/
def Setting.attached (s : Switch) (value : List Char) : Setting :=
  { switch := s, value := if value = ['-', '-'] then none else some (String.ofList value) }

/-- What one word with switches asks for. -/
structure Expansion where
  settings : List Setting
  /-- Whether the word behind was used as a value. -/
  usesNext : Bool := false
deriving DecidableEq, Repr

/-- A switch that is written without a value. `next` is the word behind it, if that can be one. -/
def expandBare (s : Switch) (next : Option String) : Except Complaint Expansion :=
  if s.takesValue then
    match next with
    | some value => .ok { settings := [⟨s, some value⟩], usesNext := true }
    | none => .error (.missingValue s.label)
  else .ok { settings := [⟨s, none⟩] }

/-- A switch with something attached to it: its value, or else more short switches. A switch with a
long name takes no others behind it. -/
def expandAttached (p : Page) (s : Switch) (isShort : Bool) (next : Option String)
    (value : List Char) : Except Complaint Expansion :=
  if s.takesValue then .ok { settings := [.attached s value] }
  else match value with
    | [] => .error (.unwantedValue s.label "")
    | c :: more =>
      match isShort, p.named.lookup (String.ofList ['-', c]) with
      | true, some other =>
        let rest :=
          if more.isEmpty then expandBare other next else expandAttached p other true next more
        rest.map fun e => { e with settings := ⟨s, none⟩ :: e.settings }
      | _, _ => .error (.unwantedValue s.label (String.ofList (c :: more)))

/-- What a switch in the command line asks for. -/
def expand (p : Page) (s : Switch) (name : String) (value : Option (List Char))
    (next : Option String) : Except Complaint Expansion :=
  match value with
  | none => expandBare s next
  | some v => expandAttached p s (!("--".isPrefixOf name)) next v

/-- What has been gathered from a command line. -/
structure Findings where
  /-- The switches in order. -/
  settings : List Setting := []
  /-- The operand. -/
  operand : Option String := none
  /-- The words behind an operand that is a command. -/
  rest : List String := []
  /-- The words that mean nothing. -/
  extras : List String := []

/-- Whether a switch takes a value. -/
def Switch.accepts (s : Switch) (value : String) : Bool :=
  s.choices.isEmpty || s.choices.contains value

/-- Notes the switches of one word, up to one that asks for help. -/
def settle (p : Page) (f : Findings) : List Setting → Except Stop Findings
  | [] => .ok f
  | setting :: more =>
    let s := setting.switch
    if s = helpSwitch then .error (.help p)
    else match setting.value with
      | some value =>
        if s.accepts value then settle p { f with settings := f.settings ++ [setting] } more
        else .error (.complaint p (.invalidChoice s.label value s.choices))
      | none => settle p { f with settings := f.settings ++ [setting] } more

/-- The word behind, if it can be a value. -/
def nextPlain : List (String × Piece) → Option String
  | (word, .plain) :: _ => some word
  | _ => none

/-- Drops the word `--`, if it comes next. -/
def dropDashes : List (String × Piece) → List (String × Piece)
  | (_, .dashes) :: more => more
  | more => more

/-- Goes through the words from left to right. `operand` is what is still to be taken. -/
def consume (p : Page) (operand : Operand) (f : Findings) :
    List (String × Piece) → Except Stop Findings
  | [] =>
    match operand with
    | .required name => .error (.complaint p (.missingOperand name))
    | _ => .ok f
  | (word, .unknown) :: more => consume p operand { f with extras := f.extras ++ [word] } more
  | (_, .switch s name value) :: more => do
    let e ← (expand p s name value (nextPlain more)).mapError (.complaint p)
    let f ← settle p f e.settings
    consume p operand f (if e.usesNext then more.drop 1 else more)
  | (word, .plain) :: more =>
    match operand with
    | .none => consume p operand { f with extras := f.extras ++ [word] } more
    | .command name choices =>
      if choices.contains word then
        .ok { f with operand := some word, rest := more.map (·.1) }
      else .error (.complaint p (.invalidChoice name word choices))
    | _ => consume p .none { f with operand := some word } (dropDashes more)
  | (word, .dashes) :: more =>
    match operand, more.head? with
    | .command name choices, some _ => .error (.complaint p (.invalidChoice name word choices))
    | .optional, none => .ok f
    | .optional, some (value, _) | .required _, some (value, _) =>
      consume p .none { f with operand := some value } (more.drop 1)
    | _, _ => consume p operand { f with extras := f.extras ++ [word] } more
termination_by words => words.length
decreasing_by
  · simp
  · split
    · simp only [List.length_cons, List.length_drop]
      omega
    · simp
  · simp
  · have : (dropDashes more).length ≤ more.length := by
      unfold dropDashes
      split <;> simp
    simp only [List.length_cons]
    omega
  · simp only [List.length_cons, List.length_drop]
    omega
  · simp

/-- What a command line says to a command. -/
def find (p : Page) (words : List String) : Except Stop Findings :=
  match classify p words with
  | .error c => .error (.complaint p c)
  | .ok pieces => consume p p.operand {} pieces

end Lojban.CommandLine
