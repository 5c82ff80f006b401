import Lojban.Command
import Lojban.Proofs.ManyLines

/-!
# The report on a file

What `check` says about the lines of a file, and with which status it ends. `Checks` says it of the
lines themselves: how many are checked and how many of them are accepted, and which are refused and
why.

Main result: `checks_lines`.
-/

namespace Lojban

open Text

/-! ## Specification -/

/-- Reading the text gives a tree. -/
def Lexicon.Accepts (lex : Lexicon) (threshold : Level) (text : String) : Prop :=
  (lex.read threshold text).value.isOk = true

instance (lex : Lexicon) (threshold : Level) (text : String) :
    Decidable (lex.Accepts threshold text) :=
  inferInstanceAs (Decidable (_ = _))

namespace Command

/-- The line about a line that is refused. -/
def refusal (r : ℕ × Failure) : String :=
  "  line " ++ toString r.1 ++ ": [" ++ r.2.kind ++ "] " ++ r.2.message

/-- The report on a file: `valid` of `checked` lines are accepted, and `rejected` are the others. -/
def summary (file : String) (checked valid : ℕ) (rejected : List (ℕ × Failure)) : List String :=
  ["File: " ++ file, "Lines checked: " ++ toString checked,
    "Valid: " ++ toString valid ++ " (" ++ percentText valid checked ++ ")"] ++
  if valid < checked then "\nErrors:" :: rejected.map refusal else []

/-- How many lines are checked: those that are not blank. -/
def checkedCount (ls : List (List Char)) : ℕ :=
  ls.countP fun l => strip l ≠ []

/-- How many of the lines that are checked are accepted. -/
def validCount (lex : Lexicon) (threshold : Level) (ls : List (List Char)) : ℕ :=
  ls.countP fun l => strip l ≠ [] ∧ lex.Accepts threshold (String.ofList l)

/-- The status and the report for a file with the lines `ls`, of which `rejected` are refused. -/
structure Checks (lex : Lexicon) (threshold : Level) (file : String) (ls : List (List Char))
    (rejected : List (ℕ × Failure)) (status : Status) (report : List String) : Prop where
  status_eq : status =
    if ∀ l ∈ ls, strip l ≠ [] → lex.Accepts threshold (String.ofList l) then 0 else 1
  report_eq : report =
    summary file (checkedCount ls) (validCount lex threshold ls) rejected
  length_rejected : rejected.length = checkedCount ls - validCount lex threshold ls
  sorted : rejected.Pairwise fun r r' => r.1 < r'.1
  mem_rejected_iff : ∀ n f, (n, f) ∈ rejected ↔ ∃ i l, n = i + 1 ∧ ls[i]? = some l ∧
    strip l ≠ [] ∧ (lex.read threshold (String.ofList l)).value = .error f

end Command

/-! ## Results -/

theorem LineResult.ok_eq_isOk (r : LineResult) : r.ok = r.outcome.isOk := by
  obtain ⟨number, text, outcome⟩ := r
  cases outcome <;> rfl

namespace Lexicon

/-- The result for a line without its end, if it is not blank. -/
def resultOf (lex : Lexicon) (threshold : Level) (l : List Char × ℕ) : Option LineResult :=
  if strip l.1 = [] then none
  else some ⟨l.2, String.ofList l.1, (lex.read threshold (String.ofList l.1)).value⟩

theorem strip_dropRightWhile_eq_nil_iff (l : List Char) :
    strip (dropRightWhile isLineEnd l) = [] ↔ strip l = [] := by
  rw [strip_eq_nil_iff, isBlankLine_dropRightWhile, ← strip_eq_nil_iff]

/-- The results for the lines of a text are those for the lines without their ends. -/
theorem results_lines (lex : Lexicon) (threshold : Level) (tracker : Option Tracker)
    (text : List Char) :
    lex.results threshold tracker ((lines text).map String.ofList) =
      (((lines text).map (dropRightWhile isLineEnd)).zipIdx 1).filterMap
        (lex.resultOf threshold) := by
  rw [results_eq, List.zipIdx_map, List.zipIdx_map, List.filterMap_map, List.filterMap_map]
  congr 1
  funext l
  simp only [Function.comp_apply, Prod.map_fst, Prod.map_snd, id_eq, value_readLine, IsBlankText,
    trimmed, String.toList_ofList, resultOf, strip_dropRightWhile_eq_nil_iff]

end Lexicon

namespace Command

/-- The failure of a line, with its number. -/
def rejection? (r : LineResult) : Option (ℕ × Failure) :=
  match r.outcome with
  | .ok _ => none
  | .error f => some (r.number, f)

/-- The results that are failures. -/
def rejectedOf (results : List LineResult) : List (ℕ × Failure) :=
  results.filterMap rejection?

theorem rejection?_eq_some_iff {r : LineResult} {x : ℕ × Failure} :
    rejection? r = some x ↔ r.number = x.1 ∧ r.outcome = .error x.2 := by
  obtain ⟨number, text, outcome⟩ := r
  obtain ⟨n, f⟩ := x
  cases outcome <;> simp [rejection?]

theorem length_rejectedOf (results : List LineResult) :
    (rejectedOf results).length = results.length - results.countP LineResult.ok := by
  have hfailed : (rejectedOf results).length = results.countP fun r => ¬ r.ok := by
    rw [rejectedOf, List.length_filterMap_eq_countP]
    congr 1
    funext r
    rw [LineResult.ok_eq_isOk, rejection?]
    cases r.outcome <;> rfl
  have hall := List.length_eq_countP_add_countP LineResult.ok (l := results)
  omega

/-- Lines are listed under a heading when some are not accepted. -/
theorem checkReport_eq (file : String) (results : List LineResult) :
    checkReport file results =
      summary file results.length (results.countP LineResult.ok) (rejectedOf results) := by
  have hlength := length_rejectedOf results
  have hle : results.countP LineResult.ok ≤ results.length := List.countP_le_length
  have hvalid : results.length - (rejectedOf results).length = results.countP LineResult.ok := by
    omega
  have hempty : (rejectedOf results).isEmpty = true ↔
      ¬ results.countP LineResult.ok < results.length := by
    rw [List.isEmpty_iff, ← List.length_eq_zero_iff]
    omega
  have hreport : checkReport file results =
      ["File: " ++ file, "Lines checked: " ++ toString results.length,
        "Valid: " ++ toString (results.length - (rejectedOf results).length) ++ " (" ++
          percentText (results.length - (rejectedOf results).length) results.length ++ ")"] ++
      if (rejectedOf results).isEmpty then []
      else "\nErrors:" :: (rejectedOf results).map refusal := rfl
  rw [hreport, hvalid, summary]
  congr 1
  by_cases h : results.countP LineResult.ok < results.length
  · rw [if_pos h, if_neg (mt hempty.mp (not_not_intro h))]
  · rw [if_neg h, if_pos (hempty.mpr h)]

theorem countP_zipIdx {α : Type} (p : α → Bool) (xs : List α) (n : ℕ) :
    (xs.zipIdx n).countP (fun x => p x.1) = xs.countP p := by
  conv_rhs => rw [← List.zipIdx_map_fst n xs, List.countP_map]
  rfl

section Lines

variable (lex : Lexicon) (threshold : Level) (ls : List (List Char))

/-- The results for lines without their ends. -/
def resultsOf : List LineResult :=
  (ls.zipIdx 1).filterMap (lex.resultOf threshold)

theorem length_resultsOf : (resultsOf lex threshold ls).length = checkedCount ls := by
  rw [resultsOf, List.length_filterMap_eq_countP, checkedCount, ← countP_zipIdx _ ls 1]
  congr 1
  funext l
  rw [Lexicon.resultOf]
  split_ifs <;> simp_all

theorem countP_ok_resultsOf :
    (resultsOf lex threshold ls).countP LineResult.ok = validCount lex threshold ls := by
  rw [resultsOf, List.countP_filterMap, validCount, ← countP_zipIdx _ ls 1]
  congr 1
  funext l
  rw [Lexicon.resultOf]
  split_ifs with h
  · simp [h]
  · simp [h, LineResult.ok_eq_isOk, Lexicon.Accepts]

/-- All results are trees when all lines that are checked are accepted. -/
theorem all_ok_resultsOf : (resultsOf lex threshold ls).all LineResult.ok = true ↔
    ∀ l ∈ ls, strip l ≠ [] → lex.Accepts threshold (String.ofList l) := by
  have hresult : ∀ x : List Char × ℕ, (∀ r ∈ lex.resultOf threshold x, r.ok = true) ↔
      (strip x.1 ≠ [] → lex.Accepts threshold (String.ofList x.1)) := by
    intro x
    rw [Lexicon.resultOf]
    split_ifs with h
    · simp [h]
    · simp [h, LineResult.ok_eq_isOk, Lexicon.Accepts]
  rw [List.all_eq_true, resultsOf]
  conv_rhs => rw [← List.zipIdx_map_fst 1 ls, List.forall_mem_map]
  constructor
  · intro h x hx
    exact (hresult x).mp fun r hr => h r (List.mem_filterMap.mpr ⟨x, hx, hr⟩)
  · intro h r hr
    obtain ⟨x, hx, hxr⟩ := List.mem_filterMap.mp hr
    exact (hresult x).mpr (h x hx) r hxr

theorem mem_rejectedOf_resultsOf (n : ℕ) (f : Failure) :
    (n, f) ∈ rejectedOf (resultsOf lex threshold ls) ↔ ∃ i l, n = i + 1 ∧ ls[i]? = some l ∧
      strip l ≠ [] ∧ (lex.read threshold (String.ofList l)).value = .error f := by
  simp only [rejectedOf, resultsOf, List.mem_filterMap, rejection?_eq_some_iff, Prod.exists,
    List.mk_mem_zipIdx_iff_le_and_getElem?_sub, Lexicon.resultOf]
  constructor
  · rintro ⟨r, ⟨l, k, ⟨hk, hl⟩, hr⟩, rfl, hf⟩
    split_ifs at hr with hblank
    cases hr
    exact ⟨k - 1, l, (Nat.sub_add_cancel hk).symm, hl, hblank, hf⟩
  · rintro ⟨i, l, rfl, hl, hblank, hf⟩
    exact ⟨_, ⟨l, i + 1, ⟨by omega, hl⟩, if_neg hblank⟩, rfl, hf⟩

end Lines

theorem pairwise_rejectedOf {results : List LineResult}
    (h : results.Pairwise fun r r' => r.number < r'.number) :
    (rejectedOf results).Pairwise fun r r' => r.1 < r'.1 := by
  rw [rejectedOf, List.pairwise_filterMap]
  refine h.imp ?_
  intro r r' hlt x hx x' hx'
  rwa [← (rejection?_eq_some_iff.mp hx).1, ← (rejection?_eq_some_iff.mp hx').1]

/-- **The report on a file says what becomes of its lines.** -/
theorem checks_lines (lex : Lexicon) (threshold : Level) (tracker : Option Tracker) (file : String)
    (text : List Char) :
    let results := lex.results threshold tracker ((lines text).map String.ofList)
    Checks lex threshold file ((lines text).map (dropRightWhile isLineEnd)) (rejectedOf results)
      (if results.all LineResult.ok then 0 else 1) (checkReport file results) := by
  intro results
  set ls := (lines text).map (dropRightWhile isLineEnd)
  have hresults : results = resultsOf lex threshold ls :=
    lex.results_lines threshold tracker text
  have hsorted := lex.pairwise_results threshold tracker ((lines text).map String.ofList)
  refine ⟨?_, ?_, ?_, pairwise_rejectedOf hsorted, ?_⟩
  · simp only [hresults, all_ok_resultsOf]
  · rw [checkReport_eq, hresults, length_resultsOf, countP_ok_resultsOf]
  · rw [length_rejectedOf, hresults, length_resultsOf, countP_ok_resultsOf]
  · rw [hresults]
    exact mem_rejectedOf_resultsOf lex threshold ls

end Command

end Lojban
