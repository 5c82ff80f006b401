import Lojban.Proofs.Runs

/-!
# How important records are

Reading makes records for those who look for a fault, counting and loading also inform, and nothing
more important is recorded unless the lists cannot be loaded. So a session that does not ask for
information shows no records (`Session.Continues`).
-/

namespace Lojban

namespace Logged

variable {α β : Type} {level : Level}

/-- All records are of `level` or less important. -/
structure AtMost (level : Level) (x : Logged α) : Prop where
  le : ∀ r ∈ x.records, r.level ≤ level

theorem AtMost.mono {level' : Level} {x : Logged α} (h : x.AtMost level) (hle : level ≤ level') :
    x.AtMost level' :=
  ⟨fun r hr => (h.le r hr).trans hle⟩

theorem atMost_pure (a : α) : (pure a : Logged α).AtMost level :=
  ⟨by simp⟩

theorem AtMost.bind {x : Logged α} {f : α → Logged β} (hx : x.AtMost level)
    (hf : (f x.value).AtMost level) : (x >>= f).AtMost level := by
  constructor
  intro r hr
  rw [records_bind, List.mem_append] at hr
  exact hr.elim (hx.le r) (hf.le r)

@[simp] theorem kept_pure (threshold : Level) (a : α) :
    (pure a : Logged α).kept threshold = [] := rfl

@[simp] theorem kept_map (threshold : Level) (f : α → β) (x : Logged α) :
    (f <$> x).kept threshold = x.kept threshold := rfl

@[simp] theorem kept_bind (threshold : Level) (x : Logged α) (f : α → Logged β) :
    (x >>= f).kept threshold = x.kept threshold ++ (f x.value).kept threshold := by
  rw [kept, records_bind, List.filter_append]
  rfl

/-- Records that are less important than the threshold are not kept. -/
theorem AtMost.kept_eq_nil {threshold : Level} {x : Logged α} (hx : x.AtMost level)
    (hlt : level < threshold) : x.kept threshold = [] := by
  refine List.filter_eq_nil_iff.mpr ?_
  intro r hr hpasses
  simp only [Level.passes, Bool.and_eq_true, decide_eq_true_eq] at hpasses
  exact absurd ((hpasses.2.trans (hx.le r hr)).trans_lt hlt) (lt_irrefl _)

theorem AtMost.map {x : Logged α} (f : α → β) (hx : x.AtMost level) : (f <$> x).AtMost level :=
  ⟨hx.le⟩

theorem atMost_note {l : Level} (h : l ≤ level) (source message : String) :
    (note source l message).AtMost level :=
  ⟨by simp [h]⟩

end Logged

open Logged

theorem atMost_noteDetails (source : String) (threshold : Level) (message : String)
    (details : List (String × Detail)) :
    (noteDetails source threshold Level.debug message details).AtMost Level.debug := by
  constructor
  intro r hr
  simp only [noteDetails, List.mem_cons] at hr
  rcases hr with rfl | hr
  · exact le_rfl
  · split_ifs at hr
    · obtain ⟨d, -, rfl⟩ := List.mem_map.mp hr
      exact le_rfl
    · cases hr

/-! ## Reading -/

theorem Tree.atMost_read (text : String) : (Tree.read text).AtMost Level.debug := by
  unfold Tree.read
  cases Tree.ofText text with
  | ok t => exact atMost_pure _
  | error e => exact (atMost_note le_rfl ..).bind (atMost_pure _)

namespace Lexicon

variable (lex : Lexicon) (threshold : Level)

theorem atMost_check (t : Tree) : (lex.check t).AtMost Level.debug := by
  unfold check
  cases t.firstUnknown? lex.isKnown with
  | none => exact atMost_pure _
  | some w => exact (atMost_note le_rfl ..).bind (atMost_pure _)

theorem atMost_read (text : String) : (lex.read threshold text).AtMost Level.debug := by
  refine (Tree.atMost_read text).bind ?_
  cases (Tree.read text).value with
  | error e => exact atMost_pure _
  | ok t =>
    dsimp only
    split_ifs
    · refine (atMost_noteDetails ..).bind ((lex.atMost_check t).bind ?_)
      cases (lex.check t).value <;> exact atMost_pure _
    · refine (lex.atMost_check t).bind ?_
      cases (lex.check t).value <;> exact atMost_pure _

theorem atMost_readLine (number : ℕ) (line : String) :
    (lex.readLine threshold number line).AtMost Level.debug := by
  unfold readLine
  dsimp only
  split_ifs
  · exact atMost_pure _
  · refine (lex.atMost_read threshold _).bind ?_
    split
    · exact atMost_pure _
    · exact (atMost_note le_rfl ..).bind (atMost_pure _)

end Lexicon

theorem Tracker.atMost_note (t : Tracker)
    (step : Progress × Except Progress.RangeError (Option String)) :
    (t.note step).AtMost Level.info := by
  unfold Tracker.note
  split
  · exact (Logged.atMost_note le_rfl ..).bind (atMost_pure _)
  · exact (atMost_pure _).bind (atMost_pure _)

theorem Tracker.atMost_advance (t : Tracker) : t.advance.AtMost Level.info :=
  t.atMost_note _

theorem Tracker.atMost_close (t : Tracker) : t.close.AtMost Level.info :=
  t.atMost_note _

theorem Lexicon.atMost_readLinesFrom (lex : Lexicon) (threshold : Level) (number : ℕ)
    (tracker : Option Tracker) (lines : List String) :
    (lex.readLinesFrom threshold number tracker lines).AtMost Level.info := by
  induction lines generalizing number tracker with
  | nil => exact atMost_pure _
  | cons line lines ih =>
    have hline : (lex.readLine threshold number line).AtMost Level.info :=
      (lex.atMost_readLine threshold number line).mono (by decide)
    cases tracker with
    | none => exact (atMost_pure _).bind (hline.bind ((ih ..).map _))
    | some t => exact t.atMost_advance.bind ((atMost_pure _).bind (hline.bind ((ih ..).map _)))

/-! ## Loading -/

theorem Sources.atMost_ofVariables (env : Variables) :
    (Sources.ofVariables env).AtMost Level.debug := by
  unfold Sources.ofVariables
  dsimp only
  split_ifs
  · exact atMost_pure _
  · exact (Logged.atMost_note le_rfl ..).bind (atMost_pure _)

theorem WordSet.atMost_load (view : DiskView) (path : Path) (marker : String) :
    (WordSet.load view path marker).AtMost Level.info := by
  refine (Logged.atMost_note le_rfl ..).bind ?_
  split
  · exact atMost_pure _
  · unfold ofText
    dsimp only
    split_ifs
    · exact atMost_pure _
    · exact (Logged.atMost_note le_rfl ..).bind (atMost_pure _)

theorem Lexicon.atMost_load (view : DiskView) (s : Sources) :
    (Lexicon.load view s).AtMost Level.info := by
  unfold Lexicon.load
  dsimp only
  have hload := fun view path => WordSet.atMost_load view path s.marker
  split
  · exact ⟨(hload _ _).le⟩
  · split
    · constructor
      intro r hr
      exact (List.mem_append.mp hr).elim ((hload _ _).le r) ((hload _ _).le r)
    · constructor
      intro r hr
      simp only [List.mem_append] at hr
      rcases hr with (hr | hr) | hr <;> exact (hload _ _).le r hr

/-- Only a failure to load the lists is more important. -/
theorem Store.atMost_get {view : DiskView} {s : Store} {lex : Lexicon}
    (h : (s.get view).value.1 = .ok lex) : (s.get view).AtMost Level.info := by
  obtain ⟨sources, state⟩ := s
  cases state with
  | loaded => exact atMost_pure _
  | failed => exact atMost_pure _
  | fresh =>
    unfold Store.get at h ⊢
    refine (Lexicon.atMost_load view sources).bind ?_
    dsimp only [Logged.value_bind] at h
    split at h
    · exact atMost_pure _
    · cases h
    · cases h

/-! ## What is shown -/

namespace Session

/-- `s'` comes after `s`: it has the same level, and shows what `s` shows and then perhaps log
records, but none if information is below the level. -/
structure Continues (s s' : Session) : Prop where
  threshold_eq : s'.threshold = s.threshold
  stdout_eq : ∃ shown, s'.stdout = s.stdout ++ shown ∧ (Level.info < s.threshold → shown = "")

theorem Continues.trans {s s' s'' : Session} (h : s.Continues s') (h' : s'.Continues s'') :
    s.Continues s'' := by
  obtain ⟨shown, hshown, hquiet⟩ := h.stdout_eq
  obtain ⟨shown', hshown', hquiet'⟩ := h'.stdout_eq
  refine ⟨h'.threshold_eq.trans h.threshold_eq, shown ++ shown', ?_, ?_⟩
  · rw [hshown', hshown, String.append_assoc]
  · intro hlt
    rw [hquiet hlt, hquiet' (h.threshold_eq ▸ hlt), String.append_empty]

theorem continues_deliverAll (s : Session) {rs : List Record} (h : ∀ r ∈ rs, r.level ≤ Level.info) :
    s.Continues (s.deliverAll rs) := by
  refine ⟨s.threshold_deliverAll rs, ?_⟩
  by_cases hquiet : Level.info < s.threshold
  · rw [deliverAll_eq_self fun r hr => (h r hr).trans_lt hquiet]
    exact ⟨"", by rw [String.append_empty], fun _ => rfl⟩
  · obtain ⟨_, _, shown, _, heq⟩ := s.deliverAll_eq rs
    exact ⟨shown, by rw [heq], fun hlt => absurd hlt hquiet⟩

theorem continues_withStore (s : Session) (store : Option Store) :
    s.Continues (s.withStore store) :=
  ⟨rfl, "", by rw [String.append_empty]; rfl, fun _ => rfl⟩

end Session

namespace Run

/-- Asking for the shared store shows at most the record of where its lists are. -/
theorem continues_sharedStore (s : Session) :
    ∃ store s', sharedStore.on s = (.ok store, s') ∧ s.Continues s' := by
  cases hstore : s.store with
  | some store =>
    exact ⟨store, s, on_sharedStore_some hstore,
      ⟨rfl, "", by rw [String.append_empty], fun _ => rfl⟩⟩
  | none =>
    have hlevels := (Sources.atMost_ofVariables s.env).mono (by decide : Level.debug ≤ Level.info)
    exact ⟨_, _, on_sharedStore_none hstore,
      (s.continues_deliverAll hlevels.le).trans (Session.continues_withStore ..)⟩

/-- Loading the lists shows no record of a failure. -/
theorem continues_lexicon {s s' : Session} {lex : Lexicon} (h : lexicon.on s = (.ok lex, s')) :
    s.Continues s' := by
  obtain ⟨store, s₁, hshared, hcontinues⟩ := continues_sharedStore s
  rw [on_lexicon_of_sharedStore hshared] at h
  obtain ⟨hvalue, hsession⟩ := Prod.mk.inj h
  rw [← hsession]
  exact hcontinues.trans ((s₁.continues_deliverAll (Store.atMost_get hvalue).le).trans
    (Session.continues_withStore ..))

/-- Setting up the log shows nothing but the announcement, and that only if it is asked for. -/
theorem continues_setUpLog {logFile : Option String} {level : Level} {debug : Bool} {s s' : Session}
    (h : (setUpLog logFile level debug).on s = (.ok (), s')) :
    let threshold := if debug then Level.debug else level
    Session.Continues { s with threshold } s' := by
  intro threshold
  obtain ⟨disk, handlers, rfl⟩ := on_setUpLog h
  have hlevels : ∀ r ∈ announcement, r.level ≤ Level.info := by
    simp only [announcement, List.forall_mem_cons]
    decide
  have hset : Session.Continues { s with threshold } { s with disk, threshold, handlers } :=
    ⟨rfl, "", by rw [String.append_empty], fun _ => rfl⟩
  exact hset.trans (Session.continues_deliverAll _ hlevels)

end Run

end Lojban
