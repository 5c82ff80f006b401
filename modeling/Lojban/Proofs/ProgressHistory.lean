import Lojban.Progress
import Lojban.Proofs.History
import Lojban.Proofs.Rounding

/-!
# Histories of progress

Items are counted by `update` and the count is ended by `close`, in any order and however often.
Never are more items done than there are, the percentage is the exact one rounded down although it
is worked out with rounded quotients, and less than ten percent ever go unreported. What is finished
stays finished.

Main result: `Progress.counts_soundly`.
-/

namespace Lojban

namespace Progress

/-! ## Specification -/

/-- What is done with a progress, `elapsed` microseconds after its start. -/
inductive Event where
  | update (n : ℕ) (elapsed : ℤ)
  | close (elapsed : ℤ)

namespace Event

/-- Carries an event out. -/
def run (p : Progress) : Event → Progress × Except RangeError (Option String)
  | update n elapsed => p.update n elapsed
  | close elapsed => p.close elapsed

/-- Ends the count. -/
def IsClose (e : Event) : Prop :=
  ∃ elapsed, e = close elapsed

end Event

/-- The progress after an event. -/
def step (p : Progress) (e : Event) : Progress :=
  (e.run p).1

/-- The state of a progress through `total` items. -/
structure Sound (total : ℤ) (p : Progress) : Prop where
  total_eq : p.total = total
  done_nonneg : 0 ≤ p.done
  done_le : p.done ≤ total
  /-- The percentage is rounded down. -/
  percent_eq : p.percent = if total = 0 then 100 else 100 * p.done / total
  reported_le : p.reported ≤ p.percent
  /-- That everything is done is reported only if it is. -/
  done_eq : p.reported = 100 → p.done = total

/-- Everything is done and has been reported. -/
structure Finished (p : Progress) : Prop where
  done_eq : p.done = p.total
  reported_eq : p.reported = 100

/-- An event that takes a progress from `before` to `after`. -/
structure Advances (before : Progress) (e : Event) (after : Progress) : Prop where
  /-- There is a report or none is due, but no error. -/
  answer : ∃ report, (e.run before).2 = .ok report
  done_le : before.done ≤ after.done
  reported_le : before.reported ≤ after.reported
  /-- What is not reported at once is less than ten percent, and not the end. -/
  reported_of_update : ∀ n elapsed, e = .update n elapsed →
    after.percent - after.reported < 10 ∧ (after.done = after.total → after.reported = 100)
  finished_of_close : e.IsClose → after.Finished

/-! ## Percentages -/

/-- Between none and all of the items are done, and the items are not too many. -/
structure InRange (p : Progress) : Prop where
  done_nonneg : 0 ≤ p.done
  done_le : p.done ≤ p.total
  total_lt : p.total < 2 ^ 46

namespace InRange

variable {p q : Progress}

theorem percent_eq (h : p.InRange) :
    p.percent = if p.total = 0 then 100 else 100 * p.done / p.total := by
  obtain ⟨hnonneg, hle, hlt⟩ := h
  have hdiv : truncQuotient (p.done * 100) p.total = p.done * 100 / p.total :=
    truncQuotient_eq_div (by omega) (by omega) (by omega)
  rw [percent, hdiv, mul_comm]
  split_ifs with hpos hzero hzero <;> omega

/-- No more than a hundred percent are done. -/
theorem percent_le (h : p.InRange) : p.percent ≤ 100 := by
  rw [h.percent_eq]
  split_ifs with hzero
  · exact le_rfl
  · obtain ⟨hnonneg, hle, -⟩ := h
    exact Int.ediv_le_of_le_mul (by omega) (by omega)

theorem percent_nonneg (h : p.InRange) : 0 ≤ p.percent := by
  rw [h.percent_eq]
  split_ifs with hzero
  · decide
  · obtain ⟨hnonneg, hle, -⟩ := h
    exact Int.ediv_nonneg (by omega) (by omega)

/-- A hundred percent are done exactly when everything is. -/
theorem percent_eq_iff (h : p.InRange) : p.percent = 100 ↔ p.done = p.total := by
  rw [h.percent_eq]
  obtain ⟨hnonneg, hle, -⟩ := h
  split_ifs with hzero
  · simp only [true_iff]
    omega
  · constructor
    · intro hpercent
      have hmul : 100 * p.total ≤ 100 * p.done := by
        have hfloor := Int.ediv_mul_le (100 * p.done) hzero
        rwa [hpercent] at hfloor
      omega
    · intro hdone
      rw [hdone, Int.mul_ediv_cancel _ hzero]

/-- The more items are done, the larger is the percentage. -/
theorem percent_mono (hp : p.InRange) (hq : q.InRange) (htotal : q.total = p.total)
    (hdone : p.done ≤ q.done) : p.percent ≤ q.percent := by
  rw [hp.percent_eq, hq.percent_eq, htotal]
  obtain ⟨hnonneg, hle, -⟩ := hp
  split_ifs
  · exact le_rfl
  · exact Int.ediv_le_ediv (by omega) (by omega)

theorem rangeError?_eq_none (h : p.InRange) (elapsed : ℤ) : p.rangeError? elapsed = none := by
  have hlimit : (2 : ℤ) ^ 46 ≤ Binary64.limit := by decide +kernel
  exact Progress.rangeError?_eq_none h.done_nonneg h.done_le (h.total_lt.trans_le hlimit) elapsed

end InRange

/-! ## Steps -/

/-- The progress with `n` more items done, but none past the total. -/
def count (p : Progress) (n : ℕ) : Progress :=
  { p with done := min (p.done + n) p.total }

/-- The progress with the current percentage reported. -/
def markReported (p : Progress) : Progress :=
  { p with reported := p.percent }

@[simp] theorem percent_markReported (p : Progress) : p.markReported.percent = p.percent := rfl

theorem inRange_count {p : Progress} (h : p.InRange) (n : ℕ) : (p.count n).InRange := by
  obtain ⟨hnonneg, hle, hlt⟩ := h
  exact ⟨le_min (by omega) (by omega), min_le_right _ _, hlt⟩

theorem inRange_markReported {p : Progress} (h : p.InRange) : p.markReported.InRange :=
  ⟨h.done_nonneg, h.done_le, h.total_lt⟩

theorem done_le_count {p : Progress} (h : p.InRange) (n : ℕ) : p.done ≤ (p.count n).done :=
  le_min (by omega) h.done_le

/-- Items are counted, and what is then due is reported. -/
theorem update_eq {p : Progress} (h : p.InRange) (n : ℕ) (elapsed : ℤ) :
    p.update n elapsed =
      if (p.count n).isDue then
        ((p.count n).markReported, .ok (some ((p.count n).report elapsed)))
      else (p.count n, .ok none) := by
  have hrange := (inRange_count h n).rangeError?_eq_none elapsed
  unfold update
  dsimp only
  split
  · next e he => exact absurd (hrange.symm.trans he) (by simp)
  · rfl

/-- A progress in range is sound if it has reported no more than there is to report. -/
theorem InRange.sound {p : Progress} (h : p.InRange) (hreported : p.reported ≤ p.percent) :
    Sound p.total p where
  total_eq := rfl
  done_nonneg := h.done_nonneg
  done_le := h.done_le
  percent_eq := h.percent_eq
  reported_le := hreported
  done_eq hhundred := h.percent_eq_iff.mp (le_antisymm h.percent_le (hhundred ▸ hreported))

theorem sound_start {total : ℤ} (hnonneg : 0 ≤ total) (hlt : total < 2 ^ 46) (title : String) :
    Sound total { total, title } := by
  have hrange : InRange { total, title } := ⟨le_rfl, hnonneg, hlt⟩
  have hpercent := hrange.percent_nonneg
  exact hrange.sound (by dsimp only; omega)

section Steps

variable {total : ℤ} (hlt : total < 2 ^ 46) {p : Progress} (h : Sound total p)

include hlt h

theorem Sound.inRange : p.InRange :=
  ⟨h.done_nonneg, h.total_eq ▸ h.done_le, h.total_eq ▸ hlt⟩

theorem Sound.reported_le_count (n : ℕ) : p.reported ≤ (p.count n).percent :=
  h.reported_le.trans
    ((h.inRange hlt).percent_mono (inRange_count (h.inRange hlt) n) rfl
      (done_le_count (h.inRange hlt) n))

theorem sound_update (n : ℕ) (elapsed : ℤ) : Sound total (p.update n elapsed).1 := by
  have hcount := inRange_count (h.inRange hlt) n
  obtain rfl := h.total_eq
  rw [update_eq (h.inRange hlt)]
  split_ifs
  · exact (inRange_markReported hcount).sound le_rfl
  · exact hcount.sound (h.reported_le_count hlt n)

theorem advances_update (n : ℕ) (elapsed : ℤ) :
    Advances p (.update n elapsed) (p.update n elapsed).1 := by
  have hrange := h.inRange hlt
  have hdone := done_le_count hrange n
  have hreported := h.reported_le_count hlt n
  have hclose : ¬ (Event.update n elapsed).IsClose := by rintro ⟨_, ⟨⟩⟩
  have hrun : Event.run p (.update n elapsed) = _ := update_eq hrange n elapsed
  rw [update_eq hrange]
  split_ifs at hrun ⊢ with hdue
  · refine ⟨⟨_, congrArg Prod.snd hrun⟩, hdone, hreported, ?_, fun h => absurd h hclose⟩
    intro _ _ _
    refine ⟨?_, (inRange_count hrange n).percent_eq_iff.mpr⟩
    rw [percent_markReported]
    show (p.count n).percent - (p.count n).percent < 10
    omega
  · refine ⟨⟨_, congrArg Prod.snd hrun⟩, hdone, le_rfl, ?_, fun h => absurd h hclose⟩
    intro _ _ _
    simp only [isDue, Bool.or_eq_true, decide_eq_true_eq, not_or, not_le] at hdue
    exact ⟨hdue.1, fun hend => absurd hend hdue.2⟩

/-- Once everything is counted, it is reported. -/
theorem finished_update {n : ℕ} (hend : (p.count n).done = p.total) (elapsed : ℤ) :
    (p.update n elapsed).1.Finished := by
  have hdue : (p.count n).isDue = true := by
    rw [isDue, Bool.or_eq_true, decide_eq_true_eq, decide_eq_true_eq]
    exact .inr hend
  have hrange := h.inRange hlt
  rw [update_eq hrange, if_pos hdue]
  exact ⟨hend, (inRange_count hrange n).percent_eq_iff.mpr hend⟩

end Steps

/-! ## The end -/

/-- The progress with everything done. -/
def complete (p : Progress) : Progress :=
  { p with done := p.total }

/-- What has not been reported as finished is completed and reported. -/
theorem close_eq (p : Progress) (elapsed : ℤ) :
    p.close elapsed =
      if p.reported < 100 then p.complete.update (0 : ℕ) elapsed else (p, .ok none) := rfl

theorem count_complete (p : Progress) : p.complete.count 0 = p.complete := by
  simp [count, complete]

/-- What is finished is left as it is, and not reported again. -/
theorem Finished.close_eq {p : Progress} (h : p.Finished) (elapsed : ℤ) :
    p.close elapsed = (p, .ok none) := by
  rw [Progress.close_eq, if_neg (by rw [h.reported_eq]; decide)]

section Close

variable {total : ℤ} (hlt : total < 2 ^ 46) {p : Progress} (h : Sound total p)

include hlt h

theorem sound_complete : Sound total p.complete := by
  have hrange := h.inRange hlt
  have hcomplete : p.complete.InRange :=
    ⟨hrange.done_nonneg.trans hrange.done_le, le_rfl, hrange.total_lt⟩
  have hreported := h.reported_le.trans (hrange.percent_mono hcomplete rfl hrange.done_le)
  exact h.total_eq ▸ hcomplete.sound hreported

theorem finished_of_reported (hhundred : ¬ p.reported < 100) : p.Finished := by
  have hreported : p.reported = 100 :=
    le_antisymm (h.reported_le.trans (h.inRange hlt).percent_le) (not_lt.mp hhundred)
  exact ⟨(h.done_eq hreported).trans h.total_eq.symm, hreported⟩

theorem sound_close (elapsed : ℤ) : Sound total (p.close elapsed).1 := by
  rw [close_eq]
  split_ifs
  · exact sound_update hlt (sound_complete hlt h) 0 elapsed
  · exact h

theorem advances_close (elapsed : ℤ) : Advances p (.close elapsed) (p.close elapsed).1 := by
  have hupdate : ∀ n t, Event.close elapsed ≠ .update n t := by rintro _ _ ⟨⟩
  have hcomplete := sound_complete hlt h
  have hrun : Event.run p (.close elapsed) = _ := p.close_eq elapsed
  rw [close_eq]
  split_ifs at hrun ⊢ with hhundred
  · obtain ⟨⟨report, hreport⟩, hdone, hreported, -, -⟩ := advances_update hlt hcomplete 0 elapsed
    have hend : (p.complete.count 0).done = p.complete.total := by rw [count_complete]; rfl
    refine ⟨⟨report, hrun ▸ hreport⟩, ?_, hreported, fun n t h => absurd h (hupdate n t), ?_⟩
    · exact (h.inRange hlt).done_le.trans hdone
    · exact fun _ => finished_update hlt hcomplete hend elapsed
  · refine ⟨⟨none, congrArg Prod.snd hrun⟩, le_rfl, le_rfl, fun n t h => absurd h (hupdate n t), ?_⟩
    exact fun _ => finished_of_reported hlt h hhundred

theorem sound_step (e : Event) : Sound total (p.step e) := by
  cases e with
  | update n elapsed => exact sound_update hlt h n elapsed
  | close elapsed => exact sound_close hlt h elapsed

theorem advances_step (e : Event) : Advances p e (p.step e) := by
  cases e with
  | update n elapsed => exact advances_update hlt h n elapsed
  | close elapsed => exact advances_close hlt h elapsed

/-- What is finished stays finished. -/
theorem finished_step (hfinished : p.Finished) (e : Event) : (p.step e).Finished := by
  cases e with
  | update n elapsed =>
    refine finished_update hlt h (min_eq_right ?_) elapsed
    rw [hfinished.done_eq]
    omega
  | close elapsed =>
    show (p.close elapsed).1.Finished
    rw [hfinished.close_eq]
    exact hfinished

end Close

/-! ## Histories -/

/-- **Progress is counted soundly.** Of fewer than `2 ^ 46` items, never more are done than there
are, the percentage is the exact one rounded down, and nothing but the less than ten percent since
the last report goes unreported. From the first `close` on everything is done and reported, and no
later one gives a report. -/
theorem counts_soundly {total : ℤ} (hnonneg : 0 ≤ total) (hlt : total < 2 ^ 46) (title : String)
    (es : List Event) :
    let ms := moments step { total, title } es
    (∀ m ∈ ms, Sound total m.before ∧ Sound total m.after ∧ Advances m.before m.event m.after) ∧
    ms.Pairwise fun m m' => m.event.IsClose → m'.before.Finished ∧ m'.after.Finished ∧
      (m'.event.IsClose → (m'.event.run m'.before).2 = .ok none) := by
  intro ms
  have hstart := sound_start hnonneg hlt title
  have hsound : ∀ p e, Sound total p → Sound total (step p e) := fun _ e h => sound_step hlt h e
  refine ⟨?_, ?_⟩
  · intro m hm
    obtain ⟨hbefore, hafter, heq⟩ := forall_moments_always hsound hstart es m hm
    exact ⟨hbefore, hafter, heq ▸ advances_step hlt hbefore m.event⟩
  · have hfinished : ms.Pairwise fun m m' => m.event.IsClose →
        m'.before.Finished ∧ m'.after.Finished :=
      pairwise_moments hsound (fun p e h he => (advances_step hlt h e).finished_of_close he)
        (fun p e h hp => finished_step hlt h hp e) hstart
    refine hfinished.imp ?_
    intro m m' hm hclose
    obtain ⟨hbefore, hafter⟩ := hm hclose
    refine ⟨hbefore, hafter, ?_⟩
    rintro ⟨elapsed, helapsed⟩
    rw [helapsed, Event.run, hbefore.close_eq]

/-- Three items, of which one is counted before the count is ended twice. -/
theorem counts_soundly_closed_twice :
    let ms := moments step { total := 3 } [.update 1 0, .close 5, .update 7 9, .close 9]
    (0 : ℤ) ≤ 3 ∧ (3 : ℤ) < 2 ^ 46 ∧ (∀ m ∈ ms, Sound 3 m.after) ∧
      ms.map (fun m => (m.after.done, m.after.reported)) =
        [(1, 33), (3, 100), (3, 100), (3, 100)] := by
  intro ms
  have hnonneg : (0 : ℤ) ≤ 3 := by decide
  have hlt : (3 : ℤ) < 2 ^ 46 := by decide
  have hsound := (counts_soundly hnonneg hlt "Checking"
    [.update 1 0, .close 5, .update 7 9, .close 9]).1
  exact ⟨hnonneg, hlt, fun m hm => (hsound m hm).2.1, by decide +kernel⟩

end Progress

end Lojban
