import Lojban.Proofs.LineEnds
import Lojban.Proofs.Outcomes

/-!
# Reading many lines

`Lexicon.readLines` answers for each line that is not blank, with the line's number, its text and
what `Lexicon.read` gives for that text. The answer for a line depends on no other line: the results
of two lists of lines, one behind the other, are those of the first and those of the second with
their numbers shifted.

Main result: `readLines_line_by_line`.
-/

namespace Lojban

open Text

/-! ## Specification -/

/-- Nothing is left of the line when the blanks at both ends are taken off. -/
def IsBlankText (line : String) : Prop :=
  strip line.toList = []

instance (line : String) : Decidable (IsBlankText line) :=
  inferInstanceAs (Decidable (_ = _))

/-- The result with its number raised by `n`. -/
def LineResult.shift (n : ℕ) (r : LineResult) : LineResult :=
  { r with number := n + r.number }

/-- The tracker once `n` more items have been counted. -/
def Tracker.advanced (n : ℕ) : Tracker → Tracker :=
  (fun t => t.advance.value)^[n]

namespace Lexicon

/-- The results for the lines, whatever is kept of the records and the tracker. -/
def results (lex : Lexicon) (threshold : Level) (tracker : Option Tracker) (lines : List String) :
    List LineResult :=
  (lex.readLines threshold tracker lines).value.1

/-! ## One line -/

/-- A line without the line ends behind it. -/
def trimmed (line : String) : String :=
  String.ofList (dropRightWhile isLineEnd line.toList)

theorem trims_trimmed (line : String) : Trims line.toList (trimmed line).toList := by
  rw [trimmed, String.toList_ofList]
  exact trims_dropRightWhile line.toList

theorem isBlankText_iff (line : String) :
    IsBlankText line ↔ isBlankLine (dropRightWhile isLineEnd line.toList) = true := by
  rw [IsBlankText, strip_eq_nil_iff, isBlankLine_dropRightWhile]

/-- The answer for a line that is not blank is that of reading its text. -/
theorem value_readLine (lex : Lexicon) (threshold : Level) (number : ℕ) (line : String) :
    (lex.readLine threshold number line).value =
      if IsBlankText line then none
      else some ⟨number, trimmed line, (lex.read threshold (trimmed line)).value⟩ := by
  simp only [readLine, isBlankText_iff]
  split_ifs with h
  · rfl
  · simp only [Logged.value_bind, trimmed]
    split <;> rfl

/-! ## All lines -/

theorem value_readLinesFrom_cons (lex : Lexicon) (threshold : Level) (number : ℕ)
    (tracker : Option Tracker) (line : String) (lines : List String) :
    (lex.readLinesFrom threshold number tracker (line :: lines)).value =
      let more := lex.readLinesFrom threshold (number + 1) (tracker.map (Tracker.advanced 1)) lines
      ((lex.readLine threshold number line).value.toList ++ more.value.1, more.value.2) := by
  cases tracker <;> rfl

/-- The results are those of the lines, each with its number, and the tracker has advanced once a
line. -/
theorem value_readLinesFrom (lex : Lexicon) (threshold : Level) (number : ℕ)
    (tracker : Option Tracker) (lines : List String) :
    (lex.readLinesFrom threshold number tracker lines).value =
      ((lines.zipIdx number).filterMap fun line => (lex.readLine threshold line.2 line.1).value,
        tracker.map (Tracker.advanced lines.length)) := by
  induction lines generalizing number tracker with
  | nil => cases tracker <;> rfl
  | cons line lines ih =>
    rw [value_readLinesFrom_cons]
    dsimp only
    rw [ih]
    refine Prod.ext ?_ ?_
    · rw [List.zipIdx_cons, List.filterMap_cons]
      cases (lex.readLine threshold number line).value <;> rfl
    · rw [Option.map_map, List.length_cons]
      rfl

theorem results_eq (lex : Lexicon) (threshold : Level) (tracker : Option Tracker)
    (lines : List String) :
    lex.results threshold tracker lines =
      (lines.zipIdx 1).filterMap fun line => (lex.readLine threshold line.2 line.1).value := by
  rw [results, readLines, value_readLinesFrom]

/-- The results do not depend on which records are kept, nor on a tracker. -/
theorem results_congr (lex : Lexicon) (threshold threshold' : Level)
    (tracker tracker' : Option Tracker) (lines : List String) :
    lex.results threshold tracker lines = lex.results threshold' tracker' lines := by
  simp only [results_eq, value_readLine, value_read]

/-- The number of a line only turns up as the number of its result. -/
theorem value_readLine_add (lex : Lexicon) (threshold : Level) (n number : ℕ) (line : String) :
    (lex.readLine threshold (n + number) line).value =
      (lex.readLine threshold number line).value.map (LineResult.shift n) := by
  rw [value_readLine, value_readLine]
  split_ifs <;> rfl

/-- The second of two lists of lines is read as if it were alone, but for the numbers. -/
theorem results_append (lex : Lexicon) (threshold : Level) (tracker : Option Tracker)
    (a b : List String) :
    lex.results threshold tracker (a ++ b) =
      lex.results threshold tracker a ++
        (lex.results threshold tracker b).map (LineResult.shift a.length) := by
  rw [results_eq, results_eq, results_eq, List.zipIdx_append, List.filterMap_append,
    List.map_filterMap, Nat.add_comm 1]
  congr 1
  rw [← List.map_snd_add_zipIdx_eq_zipIdx, List.filterMap_map]
  congr 1
  funext line
  rw [Function.comp_apply, Prod.map_snd, Nat.add_comm, Prod.map_fst, value_readLine_add]
  rfl

theorem mem_results_iff {lex : Lexicon} {threshold : Level} {tracker : Option Tracker}
    {lines : List String} {r : LineResult} :
    r ∈ lex.results threshold tracker lines ↔
      ∃ i line, lines[i]? = some line ∧ ¬ IsBlankText line ∧
        r = ⟨i + 1, trimmed line, (lex.read threshold (trimmed line)).value⟩ := by
  simp only [results_eq, List.mem_filterMap, Prod.exists, value_readLine,
    List.mk_mem_zipIdx_iff_le_and_getElem?_sub]
  constructor
  · rintro ⟨line, n, ⟨hn, hline⟩, hr⟩
    split_ifs at hr with hblank
    refine ⟨n - 1, line, hline, hblank, ?_⟩
    rw [Nat.sub_add_cancel hn]
    exact (Option.some.inj hr).symm
  · rintro ⟨i, line, hline, hblank, rfl⟩
    exact ⟨line, i + 1, ⟨by omega, hline⟩, if_neg hblank⟩

/-- The results come in the order of their numbers. -/
theorem pairwise_results (lex : Lexicon) (threshold : Level) (tracker : Option Tracker)
    (lines : List String) :
    (lex.results threshold tracker lines).Pairwise fun r r' => r.number < r'.number := by
  have hnumbers : (lines.zipIdx 1).Pairwise fun line line' => line.2 < line'.2 := by
    rw [← List.pairwise_map (f := Prod.snd), List.zipIdx_map_snd]
    exact List.pairwise_lt_range' ..
  have hnumber : ∀ {line : String} {n : ℕ} {r : LineResult},
      (lex.readLine threshold n line).value = some r → r.number = n := by
    intro line n r hr
    rw [value_readLine] at hr
    split_ifs at hr
    cases hr
    rfl
  rw [results_eq, List.pairwise_filterMap]
  refine hnumbers.imp ?_
  intro line line' hlt r hr r' hr'
  rwa [hnumber hr, hnumber hr']

/-- **Many lines are read line by line.** The results of two lists of lines, one behind the other, are
those of each, with the numbers of the second raised. The numbers rise, and are those of the lines
that are not blank. Each result has the text of its line and the outcome of reading that text, and
the tracker has advanced once a line, blank lines included. -/
theorem readLines_line_by_line (lex : Lexicon) (threshold : Level) (tracker : Option Tracker) :
    (∀ a b, lex.results threshold tracker (a ++ b) = lex.results threshold tracker a ++
      (lex.results threshold tracker b).map (LineResult.shift a.length)) ∧
    ∀ lines,
      (lex.results threshold tracker lines).Pairwise (fun r r' => r.number < r'.number) ∧
      (∀ n, (∃ r ∈ lex.results threshold tracker lines, r.number = n) ↔
        ∃ i line, n = i + 1 ∧ lines[i]? = some line ∧ ¬ IsBlankText line) ∧
      (∀ r ∈ lex.results threshold tracker lines, ∃ i line,
        r.number = i + 1 ∧ lines[i]? = some line ∧ Trims line.toList r.text.toList ∧
        r.outcome = (lex.read threshold r.text).value) ∧
      (lex.readLines threshold tracker lines).value.2 =
        tracker.map (Tracker.advanced lines.length) := by
  refine ⟨results_append lex threshold tracker, ?_⟩
  intro lines
  refine ⟨pairwise_results lex threshold tracker lines, ?_, ?_, ?_⟩
  · intro n
    simp only [mem_results_iff]
    constructor
    · rintro ⟨_, ⟨i, line, hline, hblank, rfl⟩, rfl⟩
      exact ⟨i, line, rfl, hline, hblank⟩
    · rintro ⟨i, line, rfl, hline, hblank⟩
      exact ⟨_, ⟨i, line, hline, hblank, rfl⟩, rfl⟩
  · intro r hr
    obtain ⟨i, line, hline, -, rfl⟩ := mem_results_iff.mp hr
    exact ⟨i, line, rfl, hline, trims_trimmed line, rfl⟩
  · rw [readLines, value_readLinesFrom]

end Lexicon

end Lojban
