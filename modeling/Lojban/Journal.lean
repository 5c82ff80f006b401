/-!
# Log records

The records that operations leave behind, and `Logged` results, which carry the records in the order
in which they were made. Whether a record is kept is decided later, by its level.
-/

namespace Lojban

/-- How important a record is; larger is more important. -/
abbrev Level := Int

namespace Level

/-- Details for those who look for a fault. -/
def debug : Level := 10

/-- Normal events. -/
def info : Level := 20

/-- Unexpected events. -/
def warning : Level := 30

/-- Failures. -/
def error : Level := 40

/-- The name of a level. -/
def name (level : Level) : String :=
  if level = 10 then "DEBUG"
  else if level = 20 then "INFO"
  else if level = 30 then "WARNING"
  else if level = 40 then "ERROR"
  else if level = 50 then "CRITICAL"
  else "Level " ++ toString level

/-- Whether records of `level` are kept where `threshold` is asked for. No record has a level of
zero or less. -/
def passes (threshold level : Level) : Bool :=
  0 < level && threshold ≤ level

end Level

/-! ## Sources

The parts of the program that write records, by the names they write them under. -/

namespace Source

/-- No part in particular. -/
def root : String := "root"

/-- The program as a whole. -/
def program : String := "valsi"

/-- Reading the grammar of a text. -/
def grammar : String := "valsi.grammar"

/-- Reading a text with a lexicon. -/
def reading : String := "valsi.parser"

/-- Looking words up. -/
def vocabulary : String := "valsi.validator"

/-- Loading word lists. -/
def lexicon : String := "valsi.wordlists"

/-- Finding word lists. -/
def sources : String := "valsi.config"

/-- Counting progress. -/
def progress : String := "valsi.logging_config"

/-- The command line, as a part of the program. -/
def command : String := "valsi.cli"

/-- Whatever part was started on its own. -/
def started : String := "__main__"

/-- The source of a name; the empty name is that of no part in particular. -/
def ofName (name : String) : String :=
  if name = "" then root else name

/-- The level from which on a source keeps records: its own or, where that is zero, the level of
`root`, which has no other to fall back on. -/
def threshold (source : String) (own rootLevel : Level) : Level :=
  if source = root ∨ own ≠ 0 then own else rootLevel

end Source

/-! ## Records -/

/-- One record. -/
structure Record where
  source : String
  level : Level
  message : String
deriving DecidableEq, Repr

/-- A result and the records made on the way to it, in order. -/
structure Logged (α : Type) where
  records : List Record
  value : α
deriving Repr

namespace Logged

/-- A result with nothing to record. -/
protected def pure {α : Type} (a : α) : Logged α :=
  ⟨[], a⟩

/-- One step after another. -/
protected def bind {α β : Type} (x : Logged α) (f : α → Logged β) : Logged β :=
  let y := f x.value
  ⟨x.records ++ y.records, y.value⟩

/-- A result put into another form; the records stay. -/
protected def map {α β : Type} (f : α → β) (x : Logged α) : Logged β :=
  ⟨x.records, f x.value⟩

instance : Monad Logged where
  pure := Logged.pure
  bind := Logged.bind
  map := Logged.map

@[simp] theorem records_pure {α : Type} (a : α) : (pure a : Logged α).records = [] := rfl

@[simp] theorem value_pure {α : Type} (a : α) : (pure a : Logged α).value = a := rfl

@[simp] theorem records_map {α β : Type} (f : α → β) (x : Logged α) :
    (f <$> x).records = x.records := rfl

@[simp] theorem value_map {α β : Type} (f : α → β) (x : Logged α) :
    (f <$> x).value = f x.value := rfl

@[simp] theorem records_bind {α β : Type} (x : Logged α) (f : α → Logged β) :
    (x >>= f).records = x.records ++ (f x.value).records := rfl

@[simp] theorem value_bind {α β : Type} (x : Logged α) (f : α → Logged β) :
    (x >>= f).value = (f x.value).value := rfl

instance : LawfulMonad Logged :=
  LawfulMonad.mk' Logged (fun _ => rfl)
    (fun _ _ => by simp [pure, bind, Logged.bind, Logged.pure])
    (fun _ _ _ => by simp [bind, Logged.bind, List.append_assoc])
    (fun _ _ => rfl)
    (fun _ _ => by simp [SeqLeft.seqLeft, bind, pure, Logged.bind, Logged.pure])
    (fun _ _ => rfl)
    (fun _ _ => by simp [Functor.map, bind, pure, Logged.map, Logged.bind, Logged.pure])

/-- Makes one record. -/
def note (source : String) (level : Level) (message : String) : Logged Unit :=
  ⟨[⟨source, level, message⟩], ()⟩

@[simp] theorem records_note (source : String) (level : Level) (message : String) :
    (note source level message).records = [⟨source, level, message⟩] := rfl

/-- The records that are kept at a threshold. -/
def kept {α : Type} (threshold : Level) (x : Logged α) : List Record :=
  x.records.filter fun r => Level.passes threshold r.level

end Logged

/-! ## Records with details -/

/-- A value that is noted down as a detail. -/
inductive Detail where
  | nothing
  | flag (b : Bool)
  | number (n : Int)
  | text (s : String)
  | numbers (ns : List Int)
deriving DecidableEq, Repr

/-- The wording of a value. -/
def Detail.describe : Detail → String
  | nothing => "None"
  | flag true => "True"
  | flag false => "False"
  | number n => toString n
  | text s => s
  | numbers ns => "[" ++ ", ".intercalate (ns.map toString) ++ "]"

/-- The longest detail that is written in full. -/
def maxDetail : Nat := 200

/-- The line of one detail; long values are cut. -/
def detailLine (key : String) (value : Detail) : String :=
  let cs := value.describe.toList
  "  └─ " ++ key ++ ": " ++
    String.ofList (if maxDetail < cs.length then cs.take maxDetail ++ "...".toList else cs)

/-- Gives `key` a value; a key keeps the place it had. -/
def putDetail (details : List (String × Detail)) (key : String) (value : Detail) :
    List (String × Detail) :=
  if details.any (·.1 = key) then
    details.map fun d => if d.1 = key then (key, value) else d
  else details ++ [(key, value)]

/-- A record of `level`, followed by one detail a line where a source keeps its debug records. -/
def noteDetails (source : String) (threshold level : Level) (message : String)
    (details : List (String × Detail)) : Logged Unit :=
  ⟨⟨source, level, message⟩ ::
    (if Level.passes threshold Level.debug then
      details.map fun d => ⟨source, Level.debug, detailLine d.1 d.2⟩
    else []), ()⟩

end Lojban
