import Mathlib.Tactic

/-!
# Histories

A history is a list of events; each leads from one state to the next. `moments` are the events with
the states on either side. What every step keeps holds at every moment (`forall_moments`), and if an
event brings it about, at every later moment (`pairwise_moments`). A history can be cut at the first
moment with a property (`FirstMoment.cut`).
-/

namespace Lojban

variable {σ ε : Type}

/-- An event with the state before it and the state after it. -/
structure Moment (σ ε : Type) where
  before : σ
  event : ε
  after : σ

/-- What happens from the state `s` on. -/
def moments (step : σ → ε → σ) (s : σ) : List ε → List (Moment σ ε)
  | [] => []
  | e :: es => ⟨s, e, step s e⟩ :: moments step (step s e) es

/-- `first` is the first moment whose event has the property `p`. It lies between the moments
`quiet` and the moments `later`. -/
structure FirstMoment (p : ε → Prop) (ms quiet : List (Moment σ ε)) (first : Moment σ ε)
    (later : List (Moment σ ε)) : Prop where
  eq_append : ms = quiet ++ first :: later
  quiet_event : ∀ m ∈ quiet, ¬ p m.event
  first_event : p first.event

variable {step : σ → ε → σ} {s : σ} {es : List ε}

/-- What every step from an event with the property `p` keeps holds before and after all of them. -/
theorem forall_moments {p : ε → Prop} {inv : σ → Prop}
    (hstep : ∀ s e, p e → inv s → inv (step s e)) (hs : inv s)
    (hp : ∀ m ∈ moments step s es, p m.event) :
    ∀ m ∈ moments step s es, inv m.before ∧ inv m.after ∧ m.after = step m.before m.event := by
  induction es generalizing s with
  | nil => simp [moments]
  | cons e es ih =>
    rw [moments, List.forall_mem_cons] at hp ⊢
    have hnext := hstep s e hp.1 hs
    exact ⟨⟨hs, hnext, rfl⟩, ih hnext hp.2⟩

/-- What every step keeps holds before and after every event. -/
theorem forall_moments_always {inv : σ → Prop} (hstep : ∀ s e, inv s → inv (step s e))
    (hs : inv s) (es : List ε) :
    ∀ m ∈ moments step s es, inv m.before ∧ inv m.after ∧ m.after = step m.before m.event :=
  forall_moments (p := fun _ => True) (fun s e _ => hstep s e) hs fun _ _ => trivial

theorem after_eq {m : Moment σ ε} (hm : m ∈ moments step s es) :
    m.after = step m.before m.event := by
  have hstep : ∀ (s : σ) (e : ε), True → True := fun _ _ => id
  exact (forall_moments_always hstep trivial es m hm).2.2

/-- What every event with the property `p` brings about, and every step then keeps, holds at all
later moments. -/
theorem pairwise_moments {p : ε → Prop} {inv goal : σ → Prop}
    (hstep : ∀ s e, inv s → inv (step s e)) (hgoal : ∀ s e, inv s → p e → goal (step s e))
    (hkeep : ∀ s e, inv s → goal s → goal (step s e)) (hs : inv s) :
    (moments step s es).Pairwise fun m m' => p m.event → goal m'.before ∧ goal m'.after := by
  induction es generalizing s with
  | nil => exact .nil
  | cons e es ih =>
    have hnext := hstep s e hs
    refine List.pairwise_cons.mpr ⟨?_, ih hnext⟩
    intro m hm hp
    have hboth : ∀ s e, inv s ∧ goal s → inv (step s e) ∧ goal (step s e) :=
      fun s e h => ⟨hstep s e h.1, hkeep s e h.1 h.2⟩
    obtain ⟨hbefore, hafter, -⟩ :=
      forall_moments_always hboth ⟨hnext, hgoal s e hs hp⟩ es m hm
    exact ⟨hbefore.2, hafter.2⟩

namespace FirstMoment

variable {p : ε → Prop} {quiet later : List (Moment σ ε)} {first : Moment σ ε}

/-- What the events without the property keep holds up to the first event with it, and from there
the history goes on. -/
theorem cut (h : FirstMoment p (moments step s es) quiet first later) {inv : σ → Prop}
    (hstep : ∀ s e, ¬ p e → inv s → inv (step s e)) (hs : inv s) :
    (∀ m ∈ quiet, inv m.before ∧ inv m.after) ∧ inv first.before ∧
      first.after = step first.before first.event ∧ ∃ es, later = moments step first.after es := by
  obtain ⟨heq, hquiet, -⟩ := h
  induction quiet generalizing s es with
  | nil =>
    cases es with
    | nil => simp [moments] at heq
    | cons e es =>
      obtain ⟨rfl, hlater⟩ := List.cons.inj heq
      exact ⟨by simp, hs, rfl, es, hlater.symm⟩
  | cons m quiet ih =>
    cases es with
    | nil => simp [moments] at heq
    | cons e es =>
      obtain ⟨rfl, hrest⟩ := List.cons.inj heq
      rw [List.forall_mem_cons] at hquiet
      have hnext := hstep s e hquiet.1 hs
      obtain ⟨hmoments, hfirst⟩ := ih hnext hrest hquiet.2
      exact ⟨List.forall_mem_cons.mpr ⟨⟨hs, hnext⟩, hmoments⟩, hfirst⟩

theorem first_mem {ms : List (Moment σ ε)} (h : FirstMoment p ms quiet first later) :
    first ∈ ms := by
  rw [h.eq_append]
  simp

/-- A moment whose event has the property is the first, or it comes later. -/
theorem mem_of_event {ms : List (Moment σ ε)} (h : FirstMoment p ms quiet first later)
    {m : Moment σ ε} (hm : m ∈ ms) (hp : p m.event) : m ∈ first :: later := by
  rw [h.eq_append, List.mem_append] at hm
  exact hm.resolve_left fun hquiet => h.quiet_event m hquiet hp

end FirstMoment

end Lojban
