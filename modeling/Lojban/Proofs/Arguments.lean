import Mathlib.Tactic
import Lojban.CommandLine.Invocation

/-!
# Plain arguments

How a command line is read in which no word starts with a dash but the switches `-f` and `--format`:
a word without a dash is no switch, so the first is the command, and what comes next is its operand
or the value of a switch.
-/

namespace Lojban.CommandLine

variable {words : List String}

/-! ## Words without dashes -/

/-- A word without a dash in front is no switch. -/
theorem classify_cons_plain (p : Page) {word : String} (h : word.toList.head? ≠ some '-')
    (words : List String) :
    classify p (word :: words) = (classify p words).map ((word, .plain) :: ·) := by
  have hdashes : word ≠ "--" := by
    rintro rfl
    exact h rfl
  have hplain : classifyWord p word = .ok .plain := by
    rw [classifyWord]
    exact if_pos h
  rw [classify, if_neg hdashes, hplain]
  cases classify p words <;> rfl

/-- No word is lost when words are told apart. -/
theorem map_fst_of_classify {p : Page} {pieces : List (String × Piece)}
    (h : classify p words = .ok pieces) : pieces.map Prod.fst = words := by
  induction words generalizing pieces with
  | nil => cases h; rfl
  | cons word words ih =>
    rw [classify] at h
    split_ifs at h
    · cases h
      simp [Function.comp_def]
    · cases hword : classifyWord p word with
      | error c => rw [hword] at h; cases h
      | ok piece =>
        cases hwords : classify p words with
        | error c => rw [hword, hwords] at h; cases h
        | ok more =>
          rw [hword, hwords] at h
          cases h
          rw [List.map_cons, ih hwords]

/-! ## Commands -/

/-- A command that comes first and leaves no word over is what the arguments stand for. -/
theorem ofArguments_command {name : String} {pieces : List (String × Piece)} {command : Command}
    (hname : name ∈ commandNames) (hpieces : classify mainPage words = .ok pieces)
    (hcommand : commandOf name words = .ok (command, [])) :
    Invocation.ofArguments (name :: words) = .ok ⟨false, none, some command⟩ := by
  have hplain : ∀ name ∈ commandNames, name.toList.head? ≠ some '-' := by decide
  have hmain : find mainPage (name :: words) = .ok { operand := some name, rest := words } := by
    rw [find, classify_cons_plain _ (hplain name hname), hpieces]
    show consume mainPage (.command "command" commandNames) {} ((name, .plain) :: pieces) = _
    rw [consume]
    simp only [List.contains_iff_mem, if_pos hname, map_fst_of_classify hpieces]
  simp only [Invocation.ofArguments, hmain, Bind.bind, Except.bind, hcommand]
  rfl

/-- A word without a dash in front is taken as the file to check. -/
theorem ofArguments_check {file : String} (h : file.toList.head? ≠ some '-') :
    Invocation.ofArguments ["check", file] = .ok ⟨false, none, some (.check file)⟩ := by
  have hcheck : find checkPage [file] = .ok { operand := some file } := by
    rw [find, classify_cons_plain _ h]
    show consume checkPage (.required "file") {} [(file, .plain)] = _
    simp [consume, dropDashes]
  refine ofArguments_command (by decide) (classify_cons_plain _ h []) ?_
  simp only [commandOf, hcheck]
  rfl

/-! ## Reading a text -/

/-- The words that ask for a format, which need not be given. -/
def formatArguments : Option Format → List String
  | none => []
  | some .text => ["--format", "text"]
  | some .json => ["--format", "json"]

/-- What the words that ask for a format are to `parse`. -/
def formatPieces : Option Format → List (String × Piece)
  | none => []
  | some .text => [("--format", .switch formatSwitch "--format" none), ("text", .plain)]
  | some .json => [("--format", .switch formatSwitch "--format" none), ("json", .plain)]

/-- What the words that ask for a format ask for. -/
def formatSettings : Option Format → List Setting
  | none => []
  | some .text => [⟨formatSwitch, some "text"⟩]
  | some .json => [⟨formatSwitch, some "json"⟩]

/-- A switch takes the word behind it as its value. -/
theorem consume_value {p : Page} {s : Switch} (hs : s.takesValue = true) (hhelp : s ≠ helpSwitch)
    {value : String} (haccepts : s.accepts value = true) (name : String) (operand : Operand)
    (f : Findings) (more : List (String × Piece)) :
    consume p operand f ((name, .switch s name none) :: (value, .plain) :: more) =
      consume p operand { f with settings := f.settings ++ [⟨s, some value⟩] } more := by
  conv_lhs => rw [consume]
  simp [expand, expandBare, hs, nextPlain, Except.mapError, Bind.bind, Except.bind, settle, hhelp,
    haccepts]

variable (format : Option Format)

theorem classify_formatArguments :
    classify parsePage (formatArguments format) = .ok (formatPieces format) := by
  rcases format with _ | _ | _ <;> decide +kernel

theorem classify_mainPage_formatArguments :
    ∃ pieces, classify mainPage (formatArguments format) = .ok pieces := by
  rcases format with _ | _ | _
  · exact ⟨[], rfl⟩
  · exact ⟨[("--format", .unknown), ("text", .plain)], by decide +kernel⟩
  · exact ⟨[("--format", .unknown), ("json", .plain)], by decide +kernel⟩

theorem consume_formatPieces {operand : Operand} (hoperand : operand = .none ∨ operand = .optional)
    (f : Findings) : consume parsePage operand f (formatPieces format) =
      .ok { f with settings := f.settings ++ formatSettings format } := by
  have hnil : ∀ f, consume parsePage operand f [] = .ok f := by
    intro f
    rcases hoperand with rfl | rfl <;> simp [consume]
  rcases format with _ | _ | _
  · rw [formatPieces, hnil, formatSettings, List.append_nil]
  · rw [formatPieces, consume_value rfl (by decide) (by decide), hnil, formatSettings]
  · rw [formatPieces, consume_value rfl (by decide) (by decide), hnil, formatSettings]

/-- A word without a dash in front is taken as the text to read. -/
theorem ofArguments_parse {text : String} (h : text.toList.head? ≠ some '-') :
    Invocation.ofArguments ("parse" :: text :: formatArguments format) =
      .ok ⟨false, none, some (.parse (some text) none (format.getD .text))⟩ := by
  obtain ⟨pieces, hpieces⟩ := classify_mainPage_formatArguments format
  have hfind : find parsePage (text :: formatArguments format) =
      .ok { settings := formatSettings format, operand := some text } := by
    have hdashes : dropDashes (formatPieces format) = formatPieces format := by
      rcases format with _ | _ | _ <;> rfl
    rw [find, classify_cons_plain _ h, classify_formatArguments]
    show consume parsePage .optional {} ((text, .plain) :: formatPieces format) = _
    simp [consume, hdashes, consume_formatPieces format (.inl rfl)]
  have hclassify := classify_cons_plain mainPage h (formatArguments format)
  rw [hpieces] at hclassify
  refine ofArguments_command (by decide) hclassify ?_
  simp only [commandOf, hfind]
  rcases format with _ | _ | _ <;> rfl

/-- The word behind `-f` is taken as the file to read the text from. -/
theorem ofArguments_parse_file {file : String} (h : file.toList.head? ≠ some '-') :
    Invocation.ofArguments ("parse" :: "-f" :: file :: formatArguments format) =
      .ok ⟨false, none, some (.parse none (some file) (format.getD .text))⟩ := by
  obtain ⟨pieces, hpieces⟩ := classify_mainPage_formatArguments format
  have hmain : classify mainPage ("-f" :: file :: formatArguments format) =
      .ok (("-f", .unknown) :: (file, .plain) :: pieces) := by
    have hswitch : classifyWord mainPage "-f" = .ok .unknown := by decide +kernel
    rw [classify, if_neg (by decide), hswitch, classify_cons_plain _ h, hpieces]
    rfl
  have hparse : classify parsePage ("-f" :: file :: formatArguments format) =
      .ok (("-f", .switch fileSwitch "-f" none) :: (file, .plain) :: formatPieces format) := by
    have hswitch : classifyWord parsePage "-f" = .ok (.switch fileSwitch "-f" none) := by
      decide +kernel
    rw [classify, if_neg (by decide), hswitch, classify_cons_plain _ h, classify_formatArguments]
    rfl
  have hfind : find parsePage ("-f" :: file :: formatArguments format) =
      .ok { settings := ⟨fileSwitch, some file⟩ :: formatSettings format } := by
    rw [find, hparse]
    show consume parsePage .optional {} _ = _
    rw [consume_value rfl (by decide) rfl, consume_formatPieces format (.inr rfl)]
    rfl
  refine ofArguments_command (by decide) hmain ?_
  simp only [commandOf, hfind]
  rcases format with _ | _ | _ <;> rfl

end Lojban.CommandLine
