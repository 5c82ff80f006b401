import Lojban.Number.Binary64

/-!
# Progress

Progress through a number of items is reported when it has grown by ten percent since the last
report, and when everything is done. A report estimates the time that is left once a rate is known.
Shares and rates must be in the range of binary64. As `Progress.rangeError?_eq_none` says, they are
whenever between none and all of the items are done and the total itself is in range.
-/

namespace Lojban

/-- Progress through `total` items. -/
structure Progress where
  total : Int
  /-- What is being done. -/
  title : String := "Checking"
  /-- How many items are done. -/
  done : Int := 0
  /-- The percentage at the last report, or -1 before the first. -/
  reported : Int := -1
deriving DecidableEq, Repr

namespace Progress

/-- The percentage that is done; of nothing, everything is. -/
def percent (p : Progress) : Int :=
  if 0 < p.total then truncQuotient (p.done * 100) p.total else 100

/-- Whether there is something left to do and a rate at which it goes, `elapsed` microseconds after
the start: some time has passed and something has been done. -/
def hasRate (p : Progress) (elapsed : Int) : Bool :=
  p.done < p.total && 0 < elapsed && 0 < p.done

/-- The seconds that are left if the rest goes at the rate so far. -/
def secondsLeft? (p : Progress) (elapsed : Int) : Option Nat :=
  if p.hasRate elapsed then
    let rate := (Binary64.ofNat p.done.toNat).div (.ofRatio elapsed.toNat 1000000)
    some ((Binary64.ofNat (p.total - p.done).toNat).div rate).floor
  else none

/-- The report of the current state. -/
def report (p : Progress) (elapsed : Int) : String :=
  p.title ++ ": " ++ toString p.done ++ "/" ++ toString p.total ++ " (" ++ toString p.percent ++
    "%)" ++
    match p.secondsLeft? elapsed with
    | some seconds => " [ETA: " ++ toString seconds ++ "s]"
    | none => ""

/-- Whether a report is due. -/
def isDue (p : Progress) : Bool :=
  10 ≤ p.percent - p.reported || p.done = p.total

/-! ## Range -/

/-- What is too large for binary64. -/
inductive RangeError where
  /-- The share that is done. -/
  | share
  /-- A count on which the time left depends. -/
  | count
deriving DecidableEq, Repr

/-- The wording of an error. -/
def RangeError.message : RangeError → String
  | .share => "integer division result too large for a float"
  | .count => "int too large to convert to float"

/-- Whether the share that is done is in range. -/
def shareInRange (p : Progress) : Bool :=
  p.total ≤ 0 || Binary64.inRange (p.done * 100).natAbs p.total.natAbs

/-- Whether the counts of what is done and what is left are in range. -/
def countsInRange (p : Progress) : Bool :=
  Binary64.inRange p.done.natAbs 1 && Binary64.inRange (p.total - p.done).natAbs 1

/-- Why the current state cannot be looked at. The share always matters, the counts only in a report
that estimates the time left. -/
def rangeError? (p : Progress) (elapsed : Int) : Option RangeError :=
  if !p.shareInRange then some .share
  else if p.isDue && p.hasRate elapsed && !p.countsInRange then some .count
  else none

theorem shareInRange_of_le {p : Progress} (done_nonneg : 0 ≤ p.done) (done_le : p.done ≤ p.total) :
    p.shareInRange = true := by
  simp only [shareInRange, Binary64.inRange, Bool.or_eq_true, decide_eq_true_eq]
  by_cases h : p.total ≤ 0
  · exact .inl h
  · have : 101 * p.total.natAbs ≤ Binary64.limit * p.total.natAbs :=
      Nat.mul_le_mul_right _ Binary64.hundred_lt_limit
    exact .inr (by omega)

theorem countsInRange_of_le {p : Progress} (done_nonneg : 0 ≤ p.done) (done_le : p.done ≤ p.total)
    (total_lt : p.total < Binary64.limit) : p.countsInRange = true := by
  simp only [countsInRange, Binary64.inRange, Bool.and_eq_true, decide_eq_true_eq]
  omega

/-- All is in range when between none and all of the items are done, however long it took. -/
theorem rangeError?_eq_none {p : Progress} (done_nonneg : 0 ≤ p.done) (done_le : p.done ≤ p.total)
    (total_lt : p.total < Binary64.limit) (elapsed : Int) : p.rangeError? elapsed = none := by
  simp [rangeError?, shareInRange_of_le done_nonneg done_le,
    countsInRange_of_le done_nonneg done_le total_lt]

/-! ## Counting -/

/-- Counts `n` more items, but none past the total. Gives the report that is then due. -/
def update (p : Progress) (n : Int := 1) (elapsed : Int := 0) :
    Progress × Except RangeError (Option String) :=
  let p := { p with done := min (p.done + n) p.total }
  match p.rangeError? elapsed with
  | some e => (p, .error e)
  | none =>
    if p.isDue then ({ p with reported := p.percent }, .ok (some (p.report elapsed)))
    else (p, .ok none)

/-- Counts everything as done, if that has not been reported yet. -/
def close (p : Progress) (elapsed : Int := 0) : Progress × Except RangeError (Option String) :=
  if p.reported < 100 then { p with done := p.total }.update 0 elapsed else (p, .ok none)

end Progress

end Lojban
