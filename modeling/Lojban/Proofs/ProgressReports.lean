import Lojban.Proofs.ProgressHistory

/-!
# Reports of progress

When progress is reported. Unless everything is done, a report is due when ten percent more are done
than at the previous report, and the first one at nine percent. This is not the same as reporting
every step of ten percent (`CrossesStep`): `Deviates` says where the two part.

Main results:
* `reports_iff_ten_more`: when there is a report, and when that is because a step is crossed.
* `reports_of_updates`: the reports when items are counted one by one, up to the last.
-/

namespace Lojban

namespace Progress

/-! ## Specification -/

/-- Whether the answer to an event is a report. -/
def isReport : Except RangeError (Option String) → Bool
  | .ok (some _) => true
  | _ => false

/-- Whether a report is given at this moment. -/
def givesReport (m : Moment Progress Event) : Bool :=
  isReport (m.event.run m.before).2

/-- The states that are reported at some moments. -/
def reportedStates (ms : List (Moment Progress Event)) : List Progress :=
  (ms.filter givesReport).map Moment.after

/-- The percentage at the last report, if there has been one. -/
def lastReported? (ms : List (Moment Progress Event)) : Option ℤ :=
  (reportedStates ms).getLast?.map percent

/-- One of the steps ten, twenty, …, ninety is reached at `percent`, and had not been at the
previous report. -/
def CrossesStep (previous : Option ℤ) (percent : ℤ) : Prop :=
  ∃ k : ℤ, 1 ≤ k ∧ k ≤ 9 ∧ previous.getD 0 < 10 * k ∧ 10 * k ≤ percent

/-- Where reports and steps part: the first report comes at nine percent already, and a step that
lies less than ten percent behind the previous report is passed over. -/
inductive Deviates : Option ℤ → ℤ → Prop
  | early : Deviates none 9
  | late {q percent : ℤ} (hstep : 10 * (q / 10) + 10 ≤ percent) (hlt : percent < q + 10) :
      Deviates (some q) percent

/-! ## What is reported -/

/-- An update counts items. Then the state cannot be reported, or it is reported, or nothing is
due. -/
theorem update_cases (p : Progress) (n elapsed : ℤ) :
    let counted := { p with done := min (p.done + n) p.total }
    (∃ e, p.update n elapsed = (counted, .error e)) ∨
      (∃ report, p.update n elapsed = (counted.markReported, .ok (some report))) ∨
      p.update n elapsed = (counted, .ok none) := by
  unfold update
  dsimp only
  split
  · exact .inl ⟨_, rfl⟩
  · split_ifs
    · exact .inr (.inl ⟨_, rfl⟩)
    · exact .inr (.inr rfl)

theorem reported_update (p : Progress) (n elapsed : ℤ) :
    (p.update n elapsed).1.reported =
      if isReport (p.update n elapsed).2 then (p.update n elapsed).1.percent else p.reported := by
  rcases p.update_cases n elapsed with ⟨e, h⟩ | ⟨report, h⟩ | h <;> rw [h] <;> rfl

/-- A report is about the state after the event, and without one the last report stays what it
was. -/
theorem reported_step (p : Progress) (e : Event) :
    (p.step e).reported =
      if givesReport ⟨p, e, p.step e⟩ then (p.step e).percent else p.reported := by
  cases e with
  | update n elapsed => exact reported_update p n elapsed
  | close elapsed =>
    show (p.close elapsed).1.reported =
      if isReport (p.close elapsed).2 then (p.close elapsed).1.percent else p.reported
    by_cases h : p.reported < 100
    · rw [close_eq, if_pos h]
      exact reported_update p.complete (0 : ℕ) elapsed
    · rw [close_eq, if_neg h]
      rfl

theorem title_step (p : Progress) (e : Event) : (p.step e).title = p.title := by
  have hupdate : ∀ (p : Progress) (n elapsed : ℤ), (p.update n elapsed).1.title = p.title := by
    intro p n elapsed
    rcases p.update_cases n elapsed with ⟨e, h⟩ | ⟨report, h⟩ | h <;>
      exact congrArg (fun r => r.1.title) h
  cases e with
  | update n elapsed => exact hupdate p n elapsed
  | close elapsed =>
    show (p.close elapsed).1.title = p.title
    rw [close_eq]
    split_ifs
    · exact hupdate p.complete (0 : ℕ) elapsed
    · rfl

/-- What is done after an update is what has been counted, reported or not. -/
theorem step_update {p : Progress} (h : p.InRange) (n : ℕ) (elapsed : ℤ) :
    (p.step (.update n elapsed)).done = (p.count n).done ∧
      (p.step (.update n elapsed)).percent = (p.count n).percent := by
  simp only [step, Event.run, update_eq h]
  split_ifs <;> exact ⟨rfl, rfl⟩

/-- The clock has no part in what an update leaves. -/
theorem step_update_congr {p : Progress} (h : p.InRange) (n : ℕ) (elapsed elapsed' : ℤ) :
    p.step (.update n elapsed) = p.step (.update n elapsed') := by
  simp only [step, Event.run, update_eq h]
  split_ifs <;> rfl

/-- An update gives a report when one is due. -/
theorem givesReport_update {p : Progress} (h : p.InRange) (n : ℕ) (elapsed : ℤ) (after : Progress) :
    givesReport ⟨p, .update n elapsed, after⟩ = (p.count n).isDue := by
  simp only [givesReport, Event.run, update_eq h]
  cases (p.count n).isDue <;> rfl

/-- **Unless everything is done, there is a report if ten percent more are done than at the last
one.** -/
theorem givesReport_iff {total : ℤ} (hlt : total < 2 ^ 46) {p : Progress} (h : Sound total p)
    {e : Event} (hdone : (p.step e).done < total) :
    givesReport ⟨p, e, p.step e⟩ = true ↔ p.reported + 10 ≤ (p.step e).percent := by
  have hrange := h.inRange hlt
  cases e with
  | update n elapsed =>
    obtain ⟨hcount, hpercent⟩ := step_update hrange n elapsed
    have hopen : (p.count n).done ≠ (p.count n).total := by
      show (p.count n).done ≠ p.total
      rw [h.total_eq, ← hcount]
      exact hdone.ne
    have hreported : (p.count n).reported = p.reported := rfl
    rw [givesReport_update hrange, hpercent, isDue, Bool.or_eq_true, decide_eq_true_eq,
      decide_eq_true_eq, or_iff_left hopen, hreported]
    omega
  | close elapsed =>
    -- a count that is ended is complete
    have hfinished := (advances_close hlt h elapsed).finished_of_close ⟨elapsed, rfl⟩
    have htotal := (sound_close hlt h elapsed).total_eq
    exact absurd (hfinished.done_eq.trans htotal) hdone.ne

/-- Once everything is counted, there is a report in any case. -/
theorem givesReport_of_done {total : ℤ} (hlt : total < 2 ^ 46) {p : Progress} (h : Sound total p)
    {n : ℕ} {elapsed : ℤ} (hdone : (p.step (.update n elapsed)).done = total) :
    givesReport ⟨p, .update n elapsed, p.step (.update n elapsed)⟩ = true := by
  have hrange := h.inRange hlt
  have hall : (p.count n).done = (p.count n).total := by
    rw [← (step_update hrange n elapsed).1, hdone]
    exact h.total_eq.symm
  rw [givesReport_update hrange, isDue, Bool.or_eq_true, decide_eq_true_eq, decide_eq_true_eq]
  exact .inr hall

theorem Sound.percent_eq_hundred_iff {total : ℤ} (hlt : total < 2 ^ 46) {p : Progress}
    (h : Sound total p) : p.percent = 100 ↔ p.done = total := by
  rw [(h.inRange hlt).percent_eq_iff, h.total_eq]

/-- Less than a hundred percent are done while something is left to do. -/
theorem Sound.percent_lt {total : ℤ} (hlt : total < 2 ^ 46) {p : Progress} (h : Sound total p)
    (hdone : p.done < total) : p.percent < 100 :=
  lt_of_le_of_ne (h.inRange hlt).percent_le (mt (h.percent_eq_hundred_iff hlt).mp hdone.ne)

/-! ## The previous report -/

theorem reportedStates_cons (m : Moment Progress Event) (ms : List (Moment Progress Event)) :
    reportedStates (m :: ms) =
      if givesReport m then m.after :: reportedStates ms else reportedStates ms := by
  simp only [reportedStates, List.filter_cons]
  split_ifs <;> rfl

/-- All reports are of the same thing. -/
theorem title_eq_of_reported (p : Progress) (es : List Event) :
    ∀ q ∈ reportedStates (moments step p es), q.title = p.title := by
  intro q hq
  obtain ⟨m, hm, rfl⟩ := List.mem_map.mp hq
  have hkeeps : ∀ q e, q.title = p.title → (step q e).title = p.title :=
    fun q e h => (q.title_step e).trans h
  exact (forall_moments_always hkeeps rfl es m (List.mem_filter.mp hm).1).2.1

theorem lastReported?_cons_getD (m : Moment Progress Event) (ms : List (Moment Progress Event))
    (r : ℤ) : (lastReported? (m :: ms)).getD r =
      (lastReported? ms).getD (if givesReport m then m.after.percent else r) := by
  rw [lastReported?, reportedStates_cons]
  split_ifs
  · rw [List.getLast?_cons, Option.map_some, Option.getD_some, lastReported?]
    cases (reportedStates ms).getLast? <;> rfl
  · rfl

/-- A progress keeps the percentage at the previous report. -/
theorem before_reported {s : Progress} {es : List Event}
    {earlier later : List (Moment Progress Event)} {m : Moment Progress Event}
    (h : moments step s es = earlier ++ m :: later) :
    m.before.reported = (lastReported? earlier).getD s.reported := by
  induction earlier generalizing s es with
  | nil =>
    cases es with
    | nil => simp [moments] at h
    | cons e es =>
      obtain ⟨rfl, -⟩ := List.cons.inj h
      rfl
  | cons m₀ earlier ih =>
    cases es with
    | nil => simp [moments] at h
    | cons e es =>
      obtain ⟨rfl, hrest⟩ := List.cons.inj h
      rw [ih hrest, lastReported?_cons_getD, reported_step]

/-! ## Steps of ten percent -/

section Steps

variable {previous : Option ℤ} {percent : ℤ} (hprevious : 0 ≤ previous.getD 0)
  (hpercent : percent < 100)

include hprevious hpercent

/-- A step is crossed if the first one behind the previous report is reached. -/
theorem crossesStep_iff :
    CrossesStep previous percent ↔ 10 * (previous.getD 0 / 10) + 10 ≤ percent := by
  constructor
  · rintro ⟨k, -, -, hbehind, hreached⟩
    omega
  · intro hreached
    exact ⟨previous.getD 0 / 10 + 1, by omega, by omega, by omega, by omega⟩

/-- Reports and steps part exactly where `Deviates` says. -/
theorem reports_iff_crosses_iff :
    (previous.getD (-1) + 10 ≤ percent ↔ CrossesStep previous percent) ↔
      ¬ Deviates previous percent := by
  rw [crossesStep_iff hprevious hpercent]
  cases previous with
  | none =>
    have hdeviates : Deviates none percent ↔ percent = 9 := by
      constructor
      · rintro ⟨⟩
        rfl
      · rintro rfl
        exact .early
    rw [hdeviates, Option.getD_none, Option.getD_none]
    omega
  | some q =>
    have hdeviates : Deviates (some q) percent ↔
        10 * (q / 10) + 10 ≤ percent ∧ percent < q + 10 := by
      constructor
      · rintro ⟨⟩
        exact ⟨‹_›, ‹_›⟩
      · rintro ⟨hstep, hlt⟩
        exact .late hstep hlt
    rw [hdeviates, Option.getD_some, Option.getD_some]
    omega

end Steps

/-- **When there is a report.** An event that leaves something to do gives a report exactly if the
percentage is ten more than at the previous report, or nine if there has been none. That is when a
step of ten percent is crossed, but for a first report at nine percent, and for steps less than ten
percent behind a report. -/
theorem reports_iff_ten_more {total : ℤ} (hpos : 1 ≤ total) (hlt : total < 2 ^ 46) (title : String)
    {es : List Event} {earlier later : List (Moment Progress Event)} {m : Moment Progress Event}
    (h : moments step { total, title } es = earlier ++ m :: later) (hdone : m.after.done < total) :
    let previous := lastReported? earlier
    m.after.percent = 100 * m.after.done / total ∧
    (givesReport m = true ↔ previous.getD (-1) + 10 ≤ m.after.percent) ∧
    ((givesReport m = true ↔ CrossesStep previous m.after.percent) ↔
      ¬ Deviates previous m.after.percent) := by
  intro previous
  have hstart := sound_start (by omega) hlt title
  have hm : m ∈ moments step { total, title } es := by
    rw [h]
    simp
  have hkeeps : ∀ p e, Sound total p → Sound total (step p e) := fun _ e h => sound_step hlt h e
  have hsound := forall_moments_always hkeeps hstart es
  obtain ⟨hbefore, hafter, heq⟩ := hsound m hm
  have hpercent := hafter.percent_lt hlt hdone
  have hprevious : 0 ≤ previous.getD 0 := by
    cases hlast : previous with
    | none => exact le_rfl
    | some q =>
      obtain ⟨p, hp, rfl⟩ := Option.map_eq_some_iff.mp hlast
      obtain ⟨m', hm', rfl⟩ := List.mem_map.mp (List.mem_of_getLast? hp)
      have hearlier : m' ∈ moments step { total, title } es := by
        rw [h]
        exact List.mem_append_left _ (List.mem_filter.mp hm').1
      exact ((hsound m' hearlier).2.1.inRange hlt).percent_nonneg
  have hreport : givesReport m = true ↔ previous.getD (-1) + 10 ≤ m.after.percent := by
    have hiff := givesReport_iff hlt hbefore (e := m.event) (heq ▸ hdone)
    rw [← heq, before_reported h] at hiff
    exact hiff
  refine ⟨?_, hreport, ?_⟩
  · rw [hafter.percent_eq, if_neg (by omega)]
  · rw [hreport]
    exact reports_iff_crosses_iff hprevious hpercent

/-- Behind a report at nineteen percent the step of twenty is passed over. -/
theorem reports_iff_ten_more_late :
    let s : Progress := { total := 100 }
    let nineteen := s.step (.update 19 0)
    let first : Moment Progress Event := ⟨s, .update 19 0, nineteen⟩
    let second : Moment Progress Event := ⟨nineteen, .update 1 0, nineteen.step (.update 1 0)⟩
    (1 : ℤ) ≤ 100 ∧ (100 : ℤ) < 2 ^ 46 ∧
      moments step s [.update 19 0, .update 1 0] = [first] ++ second :: [] ∧
      second.after.done < 100 ∧ lastReported? [first] = some 19 ∧ second.after.percent = 20 ∧
      CrossesStep (some 19) 20 ∧ givesReport second = false := by
  intro s nineteen first second
  have hms : moments step s [.update 19 0, .update 1 0] = [first] ++ second :: [] := rfl
  have hdone : second.after.done < 100 := by decide +kernel
  have hlast : lastReported? [first] = some 19 := by decide +kernel
  have hpercent : second.after.percent = 20 := by decide +kernel
  obtain ⟨-, hreport, -⟩ := reports_iff_ten_more (by decide) (by decide) "Checking" hms hdone
  have hquiet : ¬ givesReport second = true := by
    rw [hreport, hlast, hpercent]
    decide
  refine ⟨by decide, by decide, hms, hdone, hlast, hpercent, ?_, Bool.eq_false_iff.mpr hquiet⟩
  exact ⟨2, by decide, by decide, by decide, by decide⟩

/-- A first report at nine percent crosses no step, and the step of ten percent, crossed right after
it, is not reported. -/
theorem reports_between_steps :
    let ms := moments step { total := 100 } [.update 9 0, .update 1 0]
    ms.map (fun m => (m.after.percent, givesReport m)) = [(9, true), (10, false)] ∧
      ¬ CrossesStep none 9 ∧ CrossesStep (some 9) 10 := by
  refine ⟨by decide +kernel, ?_, 1, by decide, by decide, by decide, by decide⟩
  rintro ⟨k, hpos, -, -, hreached⟩
  omega

/-! ## Counting up to the end -/

/-- The states that are reported while `total` items are counted one by one. -/
structure ReportsSteadily (total : ℤ) (ps : List Progress) : Prop where
  length_le : ps.length ≤ 11
  total_eq : ∀ p ∈ ps, p.total = total
  percent_eq : ∀ p ∈ ps, p.percent = 100 * p.done / total
  done_lt : ps.Pairwise fun p q => p.done < q.done
  percent_lt : ps.Pairwise fun p q => p.percent < q.percent
  /-- Only the last report may lie less than ten percent behind the one before. -/
  ten_more : ps.dropLast.Pairwise fun p q => p.percent + 10 ≤ q.percent
  /-- The last report is that everything is done. -/
  last_eq : ∃ p, ps.getLast? = some p ∧ p.done = total ∧ p.percent = 100
  /-- No other report is. -/
  early_lt : ∀ p ∈ ps.dropLast, p.done < total

/-- What is reported behind a report at `reported` percent, when more than `counted` items are done,
up to the end. -/
inductive ReportedToEnd (total : ℤ) : ℤ → ℤ → List Progress → Prop
  | last {counted reported : ℤ} {p : Progress} (sound : Sound total p) (hcounted : counted < p.done)
      (hend : p.done = total) : ReportedToEnd total counted reported [p]
  | more {counted reported : ℤ} {p : Progress} {ps : List Progress} (sound : Sound total p)
      (hcounted : counted < p.done) (hopen : p.done < total)
      (hten : reported + 10 ≤ p.percent) (rest : ReportedToEnd total p.done p.percent ps) :
      ReportedToEnd total counted reported (p :: ps)

namespace ReportedToEnd

variable {total counted reported : ℤ} {ps : List Progress}

theorem mono {counted' : ℤ} (h : ReportedToEnd total counted reported ps)
    (hle : counted' ≤ counted) : ReportedToEnd total counted' reported ps := by
  cases h with
  | last sound hcounted hend => exact .last sound (hle.trans_lt hcounted) hend
  | more sound hcounted hopen hten rest =>
    exact .more sound (hle.trans_lt hcounted) hopen hten rest

theorem ne_nil (h : ReportedToEnd total counted reported ps) : ps ≠ [] := by
  cases h <;> exact List.cons_ne_nil _ _

theorem forall_mem (h : ReportedToEnd total counted reported ps) :
    ∀ p ∈ ps, Sound total p ∧ counted < p.done := by
  induction h with
  | last sound hcounted hend => exact List.forall_mem_singleton.mpr ⟨sound, hcounted⟩
  | more sound hcounted hopen hten rest ih =>
    refine List.forall_mem_cons.mpr ⟨⟨sound, hcounted⟩, ?_⟩
    intro q hq
    exact ⟨(ih q hq).1, hcounted.trans (ih q hq).2⟩

theorem forall_mem_dropLast (h : ReportedToEnd total counted reported ps) :
    ∀ p ∈ ps.dropLast, p.done < total ∧ reported + 10 ≤ p.percent := by
  induction h with
  | last sound hcounted hend => simp
  | more sound hcounted hopen hten rest ih =>
    rw [List.dropLast_cons_of_ne_nil rest.ne_nil]
    refine List.forall_mem_cons.mpr ⟨⟨hopen, hten⟩, ?_⟩
    intro q hq
    obtain ⟨hlt, hmore⟩ := ih q hq
    exact ⟨hlt, by omega⟩

theorem pairwise_ten_more (h : ReportedToEnd total counted reported ps) :
    ps.dropLast.Pairwise fun p q => p.percent + 10 ≤ q.percent := by
  induction h with
  | last sound hcounted hend => exact .nil
  | more sound hcounted hopen hten rest ih =>
    rw [List.dropLast_cons_of_ne_nil rest.ne_nil]
    exact List.pairwise_cons.mpr ⟨fun q hq => (rest.forall_mem_dropLast q hq).2, ih⟩

section Range

variable (hlt : total < 2 ^ 46)

include hlt

/-- The last state that is reported has everything done. -/
theorem getLast?_eq (h : ReportedToEnd total counted reported ps) :
    ∃ p, ps.getLast? = some p ∧ p.done = total ∧ p.percent = 100 := by
  induction h with
  | last sound hcounted hend =>
    exact ⟨_, rfl, hend, (sound.percent_eq_hundred_iff hlt).mpr hend⟩
  | more sound hcounted hopen hten rest ih =>
    obtain ⟨last, hlast, hdone⟩ := ih
    exact ⟨last, by rw [List.getLast?_cons, hlast]; rfl, hdone⟩

theorem forall_mem_percent (h : ReportedToEnd total counted reported ps)
    (hreported : reported < 100) : ∀ p ∈ ps, reported < p.percent := by
  induction h with
  | last sound hcounted hend =>
    have hpercent := (sound.percent_eq_hundred_iff hlt).mpr hend
    exact List.forall_mem_singleton.mpr (hpercent ▸ hreported)
  | more sound hcounted hopen hten rest ih =>
    refine List.forall_mem_cons.mpr ⟨by omega, ?_⟩
    intro q hq
    have hnext := ih (sound.percent_lt hlt hopen) q hq
    omega

theorem length_le (h : ReportedToEnd total counted reported ps) (hreported : reported < 100) :
    10 * ps.length + reported ≤ 109 := by
  induction h with
  | last sound hcounted hend =>
    rw [List.length_singleton]
    omega
  | more sound hcounted hopen hten rest ih =>
    have hrest := ih (sound.percent_lt hlt hopen)
    rw [List.length_cons]
    omega

theorem pairwise_lt (h : ReportedToEnd total counted reported ps) :
    ps.Pairwise fun p q => p.done < q.done ∧ p.percent < q.percent := by
  induction h with
  | last sound hcounted hend => exact List.pairwise_singleton ..
  | more sound hcounted hopen hten rest ih =>
    refine List.pairwise_cons.mpr ⟨?_, ih⟩
    intro q hq
    exact ⟨(rest.forall_mem q hq).2,
      rest.forall_mem_percent hlt (sound.percent_lt hlt hopen) q hq⟩

/-- Behind no report at all. -/
theorem steadily (h : ReportedToEnd total 0 (-1) ps) : ReportsSteadily total ps where
  length_le := by
    have hlength := h.length_le hlt (by decide)
    omega
  total_eq p hp := (h.forall_mem p hp).1.total_eq
  percent_eq p hp := by
    obtain ⟨sound, hcounted⟩ := h.forall_mem p hp
    have hpos := hcounted.trans_le sound.done_le
    rw [sound.percent_eq, if_neg hpos.ne']
  done_lt := (h.pairwise_lt hlt).imp And.left
  percent_lt := (h.pairwise_lt hlt).imp And.right
  ten_more := h.pairwise_ten_more
  last_eq := h.getLast?_eq hlt
  early_lt p hp := (h.forall_mem_dropLast p hp).1

end Range

end ReportedToEnd

theorem done_step_one {total : ℤ} (hlt : total < 2 ^ 46) {p : Progress} (h : Sound total p)
    (hopen : p.done < total) (time : ℤ) : (p.step (.update 1 time)).done = p.done + 1 := by
  rw [(step_update (h.inRange hlt) 1 time).1]
  exact min_eq_left (by rw [h.total_eq]; omega)

/-- What is reported while the rest is counted. -/
theorem reportedToEnd_of_updates {total : ℤ} (hlt : total < 2 ^ 46) {p : Progress}
    (h : Sound total p) {times : List ℤ} (hne : times ≠ [])
    (hrest : p.done + times.length = total) :
    ReportedToEnd total p.done p.reported
      (reportedStates (moments step p (times.map (Event.update 1)))) := by
  induction times generalizing p with
  | nil => exact absurd rfl hne
  | cons time times ih =>
    rw [List.length_cons, Nat.cast_succ] at hrest
    have hdone := done_step_one hlt h (by omega) time
    have hsound := sound_step hlt h (.update 1 time)
    have hreported := reported_step p (.update 1 time)
    rw [List.map_cons, moments, reportedStates_cons]
    by_cases hlast : times = []
    · subst hlast
      have hend : (p.step (.update 1 time)).done = total := by
        rw [hdone, ← hrest, List.length_nil]
        omega
      rw [if_pos (givesReport_of_done hlt h hend)]
      exact .last hsound (by dsimp only; omega) hend
    · have hpos := List.length_pos_iff.mpr hlast
      have hopen : (p.step (.update 1 time)).done < total := by omega
      have hmore := ih hsound hlast (by omega)
      split_ifs at hreported ⊢ with hreport
      · rw [hreported] at hmore
        exact .more hsound (by dsimp only; omega) hopen ((givesReport_iff hlt h hopen).mp hreport)
          hmore
      · rw [hreported] at hmore
        exact hmore.mono (by omega)

/-- The states that are reported do not depend on when items are counted. -/
theorem reportedStates_of_times {total : ℤ} (hlt : total < 2 ^ 46) {p : Progress}
    (h : Sound total p) (times : List ℤ) :
    reportedStates (moments step p (times.map (Event.update 1))) =
      reportedStates (moments step p (List.replicate times.length (.update 1 0))) := by
  induction times generalizing p with
  | nil => rfl
  | cons time times ih =>
    have hrange := h.inRange hlt
    have hstep : p.step (.update 1 time) = p.step (.update 1 0) :=
      step_update_congr hrange 1 time 0
    simp only [List.map_cons, List.length_cons, List.replicate_succ, moments, reportedStates_cons,
      givesReport_update hrange, ih (sound_step hlt h _), hstep]

/-- **Items that are counted one by one, at whatever times, are reported steadily.** -/
theorem reports_of_updates {total : ℤ} (hlt : total < 2 ^ 46) {times : List ℤ} (hne : times ≠ [])
    (hlength : times.length = total) (title : String) :
    ReportsSteadily total
      (reportedStates (moments step { total, title } (times.map (Event.update 1)))) := by
  have hstart := sound_start (hlength ▸ Int.natCast_nonneg _) hlt title
  exact (reportedToEnd_of_updates hlt hstart hne (by rw [zero_add, hlength])).steadily hlt

end Progress

end Lojban
