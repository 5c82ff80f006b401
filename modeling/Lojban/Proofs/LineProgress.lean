import Lojban.Proofs.ManyLines
import Lojban.Proofs.ProgressReports
import Lojban.Proofs.RecordLevels

/-!
# Progress through many lines

A tracker counts each line that is read, blank or not, and records the reports that are due. All
other records of reading are details (`kept_readLinesFrom`), so what is reported when items are
counted one by one (`Progress.reports_of_updates`) is what is recorded when lines are read.

Main result: `readLines_reports`.
-/

namespace Lojban

open Progress

/-- The record of a report at the time that a clock shows when so many items are done. -/
def Progress.toRecord (source : String) (clock : ℤ → ℤ) (p : Progress) : Record :=
  let left := match p.secondsLeft? (clock p.done) with
    | some seconds => " [ETA: " ++ toString seconds ++ "s]"
    | none => ""
  ⟨source, Level.info, p.title ++ ": " ++ toString p.done ++ "/" ++ toString p.total ++ " (" ++
    toString p.percent ++ "%)" ++ left⟩

/-! ## Counting lines -/

/-- No time is left once everything is done. -/
theorem Progress.secondsLeft?_of_done {p : Progress} (h : p.done = p.total) (elapsed : ℤ) :
    p.secondsLeft? elapsed = none := by
  have hrate : p.hasRate elapsed = false := by simp [hasRate, h]
  rw [secondsLeft?, hrate, if_neg Bool.false_ne_true]

/-- When the last item is counted, the clock is not looked at. -/
theorem Progress.report_count_one {p : Progress} (source : String) (clock : ℤ → ℤ) :
    ⟨source, Level.info, (p.count 1).report (clock (p.done + 1))⟩ =
      (p.count 1).markReported.toRecord source clock := by
  have hleft : (p.count 1).secondsLeft? (clock (p.done + 1)) =
      (p.count 1).markReported.secondsLeft? (clock (p.count 1).markReported.done) := by
    show _ = (p.count 1).secondsLeft? (clock (min (p.done + 1) p.total))
    rcases le_total (p.done + 1) p.total with hle | hle
    · rw [min_eq_left hle]
    · have hdone : (p.count 1).done = (p.count 1).total := min_eq_right hle
      rw [secondsLeft?_of_done hdone, secondsLeft?_of_done hdone]
  rw [report, hleft]
  rfl

/-- The last record reads that everything is done. -/
theorem Progress.toRecord_of_done {p : Progress} (source : String) (clock : ℤ → ℤ)
    (h : p.done = p.total) (hpercent : p.percent = 100) :
    p.toRecord source clock = ⟨source, Level.info,
      p.title ++ ": " ++ toString p.total ++ "/" ++ toString p.total ++ " (100%)"⟩ := by
  have hwording : " (" ++ toString (100 : ℤ) ++ "%)" = " (100%)" := rfl
  simp only [toRecord, secondsLeft?_of_done h, h, hpercent, String.append_empty, ← hwording,
    String.append_assoc]

namespace Tracker

theorem value_note (t : Tracker) (step : Progress × Except RangeError (Option String)) :
    (t.note step).value = { t with progress := step.1 } := by
  unfold note
  split <;> rfl

/-- The time at which the tracker counts its next item. -/
def nextTime (t : Tracker) : ℤ :=
  t.elapsed (t.progress.done + 1)

theorem value_advance (t : Tracker) :
    t.advance.value = { t with progress := t.progress.step (.update 1 t.nextTime) } :=
  t.value_note _

/-- What is kept of counting a line is the report of it, if there is one. -/
theorem kept_advance (t : Tracker) (h : t.progress.InRange) :
    t.advance.kept Level.info =
      (reportedStates (moments step t.progress [.update 1 0])).map
        (toRecord t.source t.elapsed) := by
  show (t.note (t.progress.update (1 : ℕ) t.nextTime)).kept Level.info = _
  rw [moments, reportedStates_cons, givesReport_update h, step, Event.run, update_eq h, update_eq h]
  split_ifs
  · show [(⟨t.source, Level.info, (t.progress.count 1).report t.nextTime⟩ : Record)] = _
    rw [nextTime, report_count_one]
    rfl
  · rfl

theorem close_of_finished {t : Tracker} (h : t.progress.Finished) : t.close.records = [] := by
  rw [close, h.close_eq]
  rfl

/-- Of nothing, that everything is done is reported at the end. -/
theorem close_of_nothing (title source : String) (clock : ℤ → ℤ) :
    ({ progress := { total := 0, title }, source, elapsed := clock } : Tracker).close.records =
      [⟨source, Level.info, title ++ ": 0/0 (100%)"⟩] := by
  have hwording : title ++ ": " ++ "0" ++ "/" ++ "0" ++ " (" ++ "100" ++ "%)" ++ "" =
      title ++ ": 0/0 (100%)" := by
    simp only [String.append_assoc]
    rfl
  rw [← hwording]
  rfl

/-- When as many lines have been counted as there are, the progress is finished. -/
theorem finished_advanced {total : ℤ} (hlt : total < 2 ^ 46) {t : Tracker}
    (h : Sound total t.progress) {n : ℕ} (hpos : n ≠ 0) (hrest : t.progress.done + n = total) :
    (t.advanced n).progress.Finished := by
  induction n generalizing t with
  | zero => exact absurd rfl hpos
  | succ n ih =>
    rw [Nat.cast_succ] at hrest
    have hadvance : t.advanced (n + 1) = t.advance.value.advanced n :=
      Function.iterate_succ_apply ..
    have hdone := done_step_one hlt h (by omega) t.nextTime
    rw [hadvance, value_advance]
    by_cases hlast : n = 0
    · subst hlast
      refine finished_update hlt h ?_ t.nextTime
      rw [← (step_update (h.inRange hlt) 1 t.nextTime).1, hdone, h.total_eq]
      omega
    · refine ih (sound_step hlt h _) hlast ?_
      dsimp only
      omega

end Tracker

namespace Lexicon

variable (lex : Lexicon) (threshold : Level)

/-- What is kept of reading lines are the reports of counting them. -/
theorem kept_readLinesFrom {total : ℤ} (hlt : total < 2 ^ 46) (number : ℕ) {t : Tracker}
    (h : Sound total t.progress) (lines : List String) :
    (lex.readLinesFrom threshold number (some t) lines).kept Level.info =
      (reportedStates (moments step t.progress (List.replicate lines.length (.update 1 0)))).map
        (toRecord t.source t.elapsed) := by
  induction lines generalizing number t with
  | nil => rfl
  | cons line lines ih =>
    have hline := (lex.atMost_readLine threshold number line).kept_eq_nil
      (by decide : Level.debug < Level.info)
    have hcount := t.kept_advance (h.inRange hlt)
    have hstep := step_update_congr (h.inRange hlt) 1 t.nextTime 0
    have hrest := ih (number + 1) (t := { t with progress := t.progress.step (.update 1 0) })
      (sound_step hlt h _)
    simp only [readLinesFrom, Logged.kept_bind, Logged.kept_map, Logged.kept_pure, hline, hcount,
      Tracker.value_advance, hstep, Logged.value_pure, List.nil_append]
    rw [hrest, List.length_cons, List.replicate_succ]
    simp only [moments, reportedStates_cons]
    split_ifs <;> rfl

/-- **Progress through lines is reported steadily.** While lines are read, the only records kept of
more than detail are the reports of counting them, at whatever times that is. They rise steadily to
the last line, blank lines included, and nothing is left to report then. Of no lines nothing is
reported until the end. -/
theorem readLines_reports (title source : String) (clock : ℤ → ℤ) (lines : List String)
    (hlt : lines.length < 2 ^ 46) :
    let n := lines.length
    let tracker : Tracker := { progress := { total := n, title }, source, elapsed := clock }
    let read := lex.readLines threshold (some tracker) lines
    ∃ ps finished,
      read.kept Level.info = ps.map (toRecord source clock) ∧ read.value.2 = some finished ∧
      (∀ times : List ℤ, times.length = n →
        reportedStates (moments step tracker.progress (times.map (Event.update 1))) = ps) ∧
      (∀ p ∈ ps, p.title = title) ∧
      (lines ≠ [] → ReportsSteadily n ps ∧
        (read.kept Level.info).getLast? = some
          ⟨source, Level.info, title ++ ": " ++ toString n ++ "/" ++ toString n ++ " (100%)"⟩ ∧
        finished.close.records = []) ∧
      (lines = [] → ps = [] ∧
        finished.close.records = [⟨source, Level.info, title ++ ": 0/0 (100%)"⟩]) := by
  intro n tracker read
  have hlength : (n : ℤ) < 2 ^ 46 := by exact_mod_cast hlt
  have hstart : Sound n tracker.progress :=
    sound_start (Int.natCast_nonneg _) hlength title
  have hvalue : read.value.2 = some (tracker.advanced n) := by
    show (lex.readLinesFrom threshold 1 (some tracker) lines).value.2 = _
    rw [value_readLinesFrom]
    rfl
  have htimes : ∀ times : List ℤ, times.length = n →
      reportedStates (moments step tracker.progress (times.map (Event.update 1))) =
        reportedStates (moments step tracker.progress (List.replicate n (.update 1 0))) := by
    intro times htimes
    rw [reportedStates_of_times hlength hstart, htimes]
  have htitles := tracker.progress.title_eq_of_reported (List.replicate n (.update 1 0))
  have hkept := lex.kept_readLinesFrom threshold hlength 1 hstart lines
  refine ⟨_, _, hkept, hvalue, htimes, htitles, ?_, ?_⟩
  · intro hne
    have hpos : n ≠ 0 := by simpa [n] using hne
    have hlines : (List.replicate n (0 : ℤ)).length = n := List.length_replicate
    have hzeros : List.replicate n (0 : ℤ) ≠ [] := by simpa using hpos
    have hreports := reports_of_updates hlength hzeros (by rw [hlines]) title
    rw [htimes _ hlines] at hreports
    obtain ⟨p, hlast, hdone, hpercent⟩ := hreports.last_eq
    have hmem := List.mem_of_getLast? hlast
    have htotal := hreports.total_eq p hmem
    refine ⟨hreports, ?_, Tracker.close_of_finished
      (Tracker.finished_advanced hlength hstart hpos (zero_add _))⟩
    show ((lex.readLinesFrom threshold 1 (some tracker) lines).kept Level.info).getLast? = _
    rw [hkept, List.getLast?_map, hlast, Option.map_some,
      toRecord_of_done source clock (hdone.trans htotal.symm) hpercent, htotal, htitles p hmem]
    rfl
  · rintro rfl
    exact ⟨rfl, Tracker.close_of_nothing title source clock⟩

/-- Of three lines a third each is reported, though one of them is blank and one is refused. With
two seconds to a line, four are left after the first. -/
theorem readLines_reports_three :
    let lex : Lexicon := { cmavo := .ofList ["mi"] }
    let lines := ["mi", "", "qle"]
    let clock : ℤ → ℤ := fun done => 2000000 * done
    let tracker : Tracker := { progress := { total := lines.length }, elapsed := clock }
    let read := lex.readLines Level.debug (some tracker) lines
    lines.length < 2 ^ 46 ∧ lines ≠ [] ∧
      ∃ ps finished, read.kept Level.info = ps.map (toRecord Source.progress clock) ∧
        (ps.map (toRecord Source.progress clock)).map Record.message =
          ["Checking: 1/3 (33%) [ETA: 4s]", "Checking: 2/3 (66%) [ETA: 2s]",
            "Checking: 3/3 (100%)"] ∧
        ps.map percent = [33, 66, 100] ∧ ReportsSteadily 3 ps ∧ read.value.2 = some finished ∧
        finished.close.records = [] := by
  intro lex lines clock tracker read
  have hlt : lines.length < 2 ^ 46 := by decide
  have hne : lines ≠ [] := by decide
  obtain ⟨ps, finished, hkept, hfinished, htimes, -, hlines, -⟩ :=
    readLines_reports lex Level.debug "Checking" Source.progress clock lines hlt
  obtain ⟨hsteadily, -, hclose⟩ := hlines hne
  refine ⟨hlt, hne, ps, finished, hkept, ?_, ?_, hsteadily, hfinished, hclose⟩
  · rw [← htimes [0, 5, 9] rfl]
    decide +kernel
  · rw [← htimes [0, 5, 9] rfl]
    decide +kernel

end Lexicon

end Lojban
