import Lojban.Proofs.History
import Lojban.Proofs.ManyLines
import Lojban.Proofs.Runs
import Lojban.Proofs.StoreHistory

/-!
# Histories of a session

Calls in a session, some of which are given a lexicon and some of which use the shared store, while
the environment and the files change in between. Two moments count for the shared store: its sources
are those of the environment when it is first used, and its lists are those on the disk when they are
first needed. From then on a call that uses it does what it would do if it were given that one
lexicon, or fails as loading it did.

Main result: `shared_store_is_fixed`.
-/

namespace Lojban

/-! ## Specification -/

/-- What a call gives. -/
inductive Answer where
  | tree (t : Tree)
  | results (rs : List LineResult)
  | lexicon (lex : Lexicon)
  | sources (s : Sources)
  | done

/-- A call that needs a lexicon. -/
inductive Call where
  | readText (text : String)
  | readLines (lines : List String)
  | lexicon

namespace Call

/-- Carries the call out with a given lexicon, or with that of the shared store. -/
def run (given : Option Lexicon) : Call → Run Answer
  | .readText text => .tree <$> Run.readText text given
  | .readLines lines => (fun answer => .results answer.1) <$> Run.readLines lines given
  | .lexicon => .lexicon <$> Run.lexiconOr given

/-- The call once the lists of the shared store have come to an outcome: it is given the lexicon, or
it fails. -/
def runSettled (c : Call) : Except LoadError Lexicon → Run Answer
  | .ok lex => c.run (some lex)
  | .error e => throw e.trouble

end Call

namespace Session

/-- What happens in a session. -/
inductive Event where
  | call (c : Call) (given : Option Lexicon)
  /-- The shared store is asked for. -/
  | store
  | environment (env : Environment)
  /-- Files are written, deleted or both. -/
  | files (change : Disk → Disk)

namespace Event

/-- Carries an event out. -/
def run : Event → Run Answer
  | .call c given => c.run given
  | .store => (fun store => .sources store.sources) <$> Run.sharedStore
  | .environment env => (fun _ => .done) <$> (modify fun s => { s with env := env.values } : Run Unit)
  | .files change =>
    (fun _ => .done) <$> (modify fun s => { s with disk := change s.disk } : Run Unit)

/-- Needs the lists of the shared store. -/
def NeedsLists (e : Event) : Prop :=
  ∃ c, e = .call c none

/-- Uses the shared store. -/
def UsesStore (e : Event) : Prop :=
  e = .store ∨ e.NeedsLists

end Event

/-- The session after an event. -/
def step (s : Session) (e : Event) : Session :=
  (e.run.on s).2

/-- What the lists of the shared store are read from: the disk, once the store is there. -/
def listView (s : Session) : DiskView :=
  (Run.sharedStore.on s).2.view

end Session

/-! ## Calls with a lexicon -/

namespace Call

/-- What a call with a lexicon gives, and the records it makes. -/
def logged (lex : Lexicon) (threshold : Level) : Call → Logged (Except Trouble Answer)
  | .readText text =>
    (fun r => (r.map Answer.tree).mapError Trouble.failure) <$> lex.read threshold text
  | .readLines lines => (fun r => .ok (.results r.1)) <$> lex.readLines threshold none lines
  | .lexicon => pure (.ok (.lexicon lex))

/-- A call with a lexicon gives what its level of records does not matter for, and does nothing to
the session but hand the records over. -/
theorem on_run_some (c : Call) (lex : Lexicon) (s : Session) :
    (c.run (some lex)).on s =
      ((c.logged lex s.threshold).value, s.deliverAll (c.logged lex s.threshold).records) := by
  cases c with
  | readText text =>
    simp only [run, Run.readText, Run.lexiconOr, pure_bind, Run.on_map, Run.on_bind, Run.on_get,
      Run.on_takeLogged, logged, Logged.value_map, Logged.records_map]
    cases (lex.read s.threshold text).value <;> rfl
  | readLines lines =>
    simp only [run, Run.readLines, Run.lexiconOr, pure_bind, Run.on_map, Run.on_bind, Run.on_get,
      Run.on_takeLogged, logged, Logged.value_map, Logged.records_map]
    rfl
  | lexicon => rfl

/-- Without a lexicon, that of the shared store is taken. -/
theorem on_run_none (c : Call) (s : Session) :
    (c.run none).on s =
      match Run.lexicon.on s with
      | (.ok lex, s') => (c.run (some lex)).on s'
      | (.error t, s') => (.error t, s') := by
  cases c with
  | readText text =>
    simp only [run, Run.readText, Run.lexiconOr, pure_bind, Run.on_map, Run.on_bind]
    rcases Run.lexicon.on s with ⟨outcome, s'⟩
    cases outcome <;> rfl
  | readLines lines =>
    simp only [run, Run.readLines, Run.lexiconOr, pure_bind, Run.on_map, Run.on_bind]
    rcases Run.lexicon.on s with ⟨outcome, s'⟩
    cases outcome <;> rfl
  | lexicon =>
    simp only [run, Run.lexiconOr, Run.on_map]
    rcases Run.lexicon.on s with ⟨outcome, s'⟩
    cases outcome <;> rfl

/-- What a call gives does not depend on the level of the records that are kept. -/
theorem value_logged (c : Call) (lex : Lexicon) (threshold threshold' : Level) :
    (c.logged lex threshold).value = (c.logged lex threshold').value := by
  cases c with
  | readText text => simp only [logged, Logged.value_map, Lexicon.value_read]
  | readLines lines =>
    simp only [logged, Logged.value_map]
    show Except.ok (Answer.results (lex.results threshold none lines)) =
      Except.ok (Answer.results (lex.results threshold' none lines))
    rw [lex.results_congr threshold threshold' none none]
  | lexicon => rfl

/-- What a call gives does not depend on the session, once the lists have come to an outcome. -/
theorem value_on_runSettled (c : Call) (outcome : Except LoadError Lexicon) (s s' : Session) :
    ((c.runSettled outcome).on s).1 = ((c.runSettled outcome).on s').1 := by
  cases outcome with
  | error e => rfl
  | ok lex =>
    simp only [runSettled, on_run_some]
    exact c.value_logged lex s.threshold s'.threshold

/-- A call with a lexicon neither looks at the shared store nor changes it. -/
theorem on_run_some_withStore (c : Call) (lex : Lexicon) (s : Session) (store : Option Store) :
    (c.run (some lex)).on (s.withStore store) =
      (((c.run (some lex)).on s).1, ((c.run (some lex)).on s).2.withStore store) := by
  rw [on_run_some, on_run_some, Session.deliverAll_withStore]
  rfl

/-- Once the lexicon is there, a call leaves the shared store as it is. -/
theorem store_on_run_none (c : Call) (s : Session) :
    ((c.run none).on s).2.store = (Run.lexicon.on s).2.store := by
  rw [on_run_none]
  rcases Run.lexicon.on s with ⟨outcome, s'⟩
  cases outcome with
  | error t => rfl
  | ok lex => simp only [on_run_some, Session.store_deliverAll]

/-- The call once loading has given what it gives for the outcome. -/
theorem on_run_none_of_lexicon {c : Call} {outcome : Except LoadError Lexicon} {s s' : Session}
    (h : Run.lexicon.on s = (outcome.mapError LoadError.trouble, s')) :
    (c.run none).on s = (c.runSettled outcome).on s' := by
  rw [on_run_none, h]
  cases outcome <;> rfl

end Call

/-! ## The shared store -/

theorem Store.sources_get (store : Store) (view : DiskView) :
    (store.get view).value.2.sources = store.sources := by
  rcases store with ⟨sources, state⟩
  cases state with
  | fresh =>
    simp only [get, Logged.value_bind]
    split <;> rfl
  | loaded | failed => rfl

namespace Session

/-- A settled store answers without doing anything to the session. -/
theorem on_lexicon_settled {s : Session} {sources : Sources} {outcome : Except LoadError Lexicon}
    (h : s.store = some ⟨sources, .settled outcome⟩) :
    Run.lexicon.on s = (outcome.mapError LoadError.trouble, s) := by
  rw [Run.on_lexicon_of_sharedStore (Run.on_sharedStore_some h), Store.get_settled]
  simp only [Logged.value_pure, Logged.records_pure, deliverAll_nil, withStore, ← h]

/-- The lists have not been needed yet, and no path of theirs has a NUL character. -/
structure Pending (s : Session) : Prop where
  env : ∃ env : Environment, env.values = s.env
  store : s.store = none ∨ ∃ sources : Sources, sources.NulFree ∧ s.store = some { sources }

/-- Making the shared store is the first half of loading the lexicon. -/
theorem Pending.on_sharedStore {s : Session} (h : s.Pending) :
    ∃ (sources : Sources) (s' : Session), sources.NulFree ∧
      Run.sharedStore.on s = (.ok { sources }, s') ∧ s'.store = some { sources } ∧
        s'.env = s.env := by
  obtain ⟨⟨env, henv⟩, hnone | ⟨sources, hnul, hsome⟩⟩ := h
  · refine ⟨_, _, ?_, Run.on_sharedStore_none hnone, rfl, env_deliverAll ..⟩
    rw [← henv]
    exact env.nulFree_sources
  · exact ⟨sources, s, hnul, Run.on_sharedStore_some hsome, hsome, rfl⟩

/-- The first time the lists are needed they are loaded, and the store is settled by that. -/
theorem Pending.on_lexicon {s : Session} (h : s.Pending) :
    ∃ (sources : Sources) (opened : List Path) (outcome : Except LoadError Lexicon) (s' : Session),
      Lexicon.Loads s.listView sources opened outcome ∧
      Run.lexicon.on s = (outcome.mapError LoadError.trouble, s') ∧
      s'.store = some ⟨sources, .settled outcome⟩ := by
  obtain ⟨sources, s', hnul, hstore, -, -⟩ := h.on_sharedStore
  obtain ⟨opened, outcome, hloads, hvalue⟩ := Lexicon.load_loads s'.view hnul
  have hlexicon := Run.on_lexicon_of_sharedStore hstore
  simp only [Store.value_get_fresh hvalue] at hlexicon
  refine ⟨sources, opened, outcome, _, ?_, hlexicon, rfl⟩
  rw [listView, hstore]
  exact hloads

/-! ## Events -/

/-- An event that does not use the shared store does not change it. -/
theorem store_step {s : Session} {e : Event} (h : ¬ e.UsesStore) : (s.step e).store = s.store := by
  cases e with
  | call c given =>
    cases given with
    | none => exact absurd (.inr ⟨c, rfl⟩) h
    | some lex => rw [step, Event.run, Call.on_run_some, store_deliverAll]
  | store => exact absurd (.inl rfl) h
  | environment | files => rfl

/-- As long as the lists are not needed, they stay pending. -/
theorem Pending.step {s : Session} {e : Event} (h : s.Pending) (he : ¬ e.NeedsLists) :
    (s.step e).Pending := by
  cases e with
  | call c given =>
    cases given with
    | none => exact absurd ⟨c, rfl⟩ he
    | some lex =>
      rw [Session.step, Event.run, Call.on_run_some]
      exact ⟨by rw [env_deliverAll]; exact h.env, by rw [store_deliverAll]; exact h.store⟩
  | store =>
    obtain ⟨sources, s', hnul, hrun, hstore, henv⟩ := h.on_sharedStore
    rw [Session.step, Event.run, Run.on_map, hrun]
    exact ⟨by rw [henv]; exact h.env, .inr ⟨sources, hnul, hstore⟩⟩
  | environment env => exact ⟨⟨env, rfl⟩, h.store⟩
  | files => exact ⟨h.env, h.store⟩

/-- A settled store stays settled. -/
theorem store_step_settled {s : Session} {sources : Sources} {outcome : Except LoadError Lexicon}
    (h : s.store = some ⟨sources, .settled outcome⟩) (e : Event) :
    (s.step e).store = some ⟨sources, .settled outcome⟩ := by
  by_cases he : e.UsesStore
  · rcases he with rfl | ⟨c, rfl⟩
    · rw [step, Event.run, Run.on_map, Run.on_sharedStore_some h]
      exact h
    · rw [step, Event.run, Call.store_on_run_none, on_lexicon_settled h, h]
  · rw [store_step he, h]

/-- What uses the shared store leaves it with the sources that it was made with. -/
theorem store_step_uses {s s' : Session} {store : Store} {e : Event} (he : e.UsesStore)
    (h : Run.sharedStore.on s = (.ok store, s')) (hs' : s'.store = some store) :
    ∃ state, (s.step e).store = some ⟨store.sources, state⟩ := by
  rcases he with rfl | ⟨c, rfl⟩
  · exact ⟨store.state, by rw [step, Event.run, Run.on_map, h, hs']⟩
  · refine ⟨(store.get s'.view).value.2.state, ?_⟩
    rw [step, Event.run, Call.store_on_run_none, Run.on_lexicon_of_sharedStore h,
      ← store.sources_get s'.view]
    rfl

/-- The shared store keeps its sources. -/
theorem store_step_some {s : Session} {sources : Sources}
    (h : ∃ state, s.store = some ⟨sources, state⟩) (e : Event) :
    ∃ state, (s.step e).store = some ⟨sources, state⟩ := by
  obtain ⟨state, hstate⟩ := h
  by_cases he : e.UsesStore
  · exact store_step_uses he (Run.on_sharedStore_some hstate) hstate
  · exact ⟨state, by rw [store_step he, hstate]⟩

/-! ## Histories -/

section Histories

variable {s : Session} {es : List Event} {quiet later : List (Moment Session Event)}
  {first : Moment Session Event}

/-- The sources of the shared store are those of the environment when it is first used. -/
theorem first_use (h : FirstMoment Event.UsesStore (moments step s es) quiet first later)
    (hs : s.store = none) :
    let sources := (Sources.ofVariables first.before.env).value
    (∀ m ∈ quiet, m.after.store = none) ∧
    ∀ m ∈ first :: later, (∃ state, m.after.store = some ⟨sources, state⟩) ∧
      (m.event = .store → (m.event.run.on m.before).1 = .ok (.sources sources)) := by
  intro sources
  have hquiet : ∀ (s : Session) (e : Event), ¬ e.UsesStore → s.store = none →
      (s.step e).store = none :=
    fun s e he hnone => (store_step he).trans hnone
  obtain ⟨hquiets, hfirst, hstep, es, rfl⟩ := h.cut hquiet hs
  have hmade := Run.on_sharedStore_none hfirst
  have hsome : ∃ state, first.after.store = some ⟨sources, state⟩ := by
    rw [hstep]
    exact store_step_uses h.first_event hmade rfl
  have hkeep : ∀ (s : Session) (e : Event), (∃ state, s.store = some ⟨sources, state⟩) →
      ∃ state, (s.step e).store = some ⟨sources, state⟩ :=
    fun s e hs => store_step_some hs e
  have hlater := forall_moments_always hkeep hsome es
  refine ⟨fun m hm => (hquiets m hm).2, ?_⟩
  rw [List.forall_mem_cons]
  refine ⟨⟨hsome, ?_⟩, ?_⟩
  · intro hevent
    rw [hevent, Event.run, Run.on_map, hmade]
    rfl
  · intro m hm
    obtain ⟨⟨state, hbefore⟩, hafter, -⟩ := hlater m hm
    refine ⟨hafter, ?_⟩
    intro hevent
    rw [hevent, Event.run, Run.on_map, Run.on_sharedStore_some hbefore]
    rfl

/-- The lists of the shared store are loaded when they are first needed, and every call that needs
them goes by the outcome of that. -/
theorem first_need (h : FirstMoment Event.NeedsLists (moments step s es) quiet first later)
    (hs : s.Pending) :
    ∃ sources opened outcome, Lexicon.Loads first.before.listView sources opened outcome ∧
      first.after.store = some ⟨sources, .settled outcome⟩ ∧
      (∀ m ∈ first :: later, ∀ c, m.event = .call c none →
        (m.event.run.on m.before).1 = ((c.runSettled outcome).on m.before).1) ∧
      ∀ m ∈ later, ∀ c, m.event = .call c none →
        m.event.run.on m.before = (c.runSettled outcome).on m.before := by
  obtain ⟨-, hfirst, hstep, es, rfl⟩ := h.cut (fun s e he hs => Pending.step hs he) hs
  obtain ⟨sources, opened, outcome, s', hloads, hlexicon, hs'⟩ := hfirst.on_lexicon
  have hsettled : first.after.store = some ⟨sources, .settled outcome⟩ := by
    obtain ⟨c, hevent⟩ := h.first_event
    rw [hstep, hevent, step, Event.run, Call.store_on_run_none, hlexicon]
    exact hs'
  have hkeep : ∀ (s : Session) (e : Event), s.store = some ⟨sources, .settled outcome⟩ →
      (s.step e).store = some ⟨sources, .settled outcome⟩ :=
    fun s e hs => store_step_settled hs e
  have hlater : ∀ m ∈ moments step first.after es, ∀ c, m.event = .call c none →
      m.event.run.on m.before = (c.runSettled outcome).on m.before := by
    intro m hm c hevent
    obtain ⟨hbefore, -, -⟩ := forall_moments_always hkeep hsettled es m hm
    rw [hevent, Event.run, Call.on_run_none_of_lexicon (on_lexicon_settled hbefore)]
  refine ⟨sources, opened, outcome, hloads, hsettled, ?_, hlater⟩
  rw [List.forall_mem_cons]
  refine ⟨?_, fun m hm c hevent => by rw [hlater m hm c hevent]⟩
  intro c hevent
  rw [hevent, Event.run, Call.on_run_none_of_lexicon hlexicon]
  exact c.value_on_runSettled outcome s' first.before

end Histories

/-- **The shared store takes two pictures.** Calls with a lexicon neither look at the shared store nor
change it. Its sources are those of the environment when it was first used. Its lists are those on
the disk when they were first needed, and from then on each call that needs them gives what it gives
with that one lexicon, or else the failure to load it. -/
theorem shared_store_is_fixed (s : Session) (env : Environment) (es : List Event) :
    let ms := moments step { s with env := env.values, store := none } es
    (∀ m ∈ ms, ∀ c lex, m.event = .call c (some lex) →
      m.after.store = m.before.store ∧
      ∀ store, m.event.run.on (m.before.withStore store) =
        ((m.event.run.on m.before).1, m.after.withStore store)) ∧
    ∀ quiet first later, FirstMoment Event.UsesStore ms quiet first later →
      let sources := (Sources.ofVariables first.before.env).value
      (∀ m ∈ quiet, m.after.store = none) ∧
      (∀ m ∈ first :: later, ∃ state, m.after.store = some ⟨sources, state⟩) ∧
      (∀ m ∈ first :: later, m.event = .store →
        (m.event.run.on m.before).1 = .ok (.sources sources)) ∧
      ∀ quiet first later, FirstMoment Event.NeedsLists ms quiet first later →
        ∃ opened outcome, Lexicon.Loads first.before.listView sources opened outcome ∧
          (∀ m ∈ first :: later, ∀ c, m.event = .call c none →
            (m.event.run.on m.before).1 = ((c.runSettled outcome).on m.before).1) ∧
          ∀ m ∈ later, ∀ c, m.event = .call c none →
            m.event.run.on m.before = (c.runSettled outcome).on m.before := by
  intro ms
  refine ⟨?_, ?_⟩
  · intro m hm c lex hevent
    have hafter := after_eq hm
    rw [hafter, step, hevent]
    refine ⟨?_, c.on_run_some_withStore lex m.before⟩
    rw [Event.run, Call.on_run_some, store_deliverAll]
  · intro quiet first later huse sources
    obtain ⟨hquiet, hlater⟩ := first_use huse rfl
    refine ⟨hquiet, fun m hm => (hlater m hm).1, fun m hm => (hlater m hm).2, ?_⟩
    intro quiet' need later' hneed
    obtain ⟨sources', opened, outcome, hloads, hsettled, hcalls⟩ :=
      first_need hneed ⟨⟨env, rfl⟩, .inl rfl⟩
    -- the lists are first needed when the store is first used or later, so it has its sources
    have hmem := huse.mem_of_event hneed.first_mem (.inr hneed.first_event)
    obtain ⟨state, hstate⟩ := (hlater need hmem).1
    rw [hsettled] at hstate
    cases hstate
    exact ⟨opened, outcome, hloads, hcalls⟩

/-- The environment changes once the store is there, and the lists are removed once they have been
loaded. Neither is noticed. -/
theorem shared_store_is_fixed_removed :
    let s : Session := { disk := sampleDisk, env := sampleEnvironment.values }
    let elsewhere : Environment := ⟨[("VALSI_WORDLIST_DIR", "missing")], by simp [NulFree]⟩
    let before : List Event :=
      [.store, .environment elsewhere, .call .lexicon none, .files fun _ => {}]
    let later := before.foldl step s
    let e : Event := .call (.readText "mi") none
    later.disk.read (.ofString "lists/cmavo.txt") = .error (.problem .noEntry "lists/cmavo.txt") ∧
      e.run.on later = ((Call.readText "mi").run (some sampleLexicon)).on later ∧
      (Event.store.run.on (later.step e)).1 = .ok (.sources sampleSources) := by
  intro s elsewhere before later e
  let loading : Event := .call .lexicon none
  let s₁ : Session := { s with store := some { sources := sampleSources } }
  let s₂ : Session := { s₁ with env := elsewhere.values }
  let s₃ : Session := s₂.step loading
  let need : Moment Session Event := ⟨s₂, loading, s₃⟩
  let call : Moment Session Event := ⟨later, e, later.step e⟩
  let last : Moment Session Event := ⟨later.step e, .store, (later.step e).step .store⟩
  have hmoments : moments step s (before ++ [e, .store]) =
      [⟨s, .store, s₁⟩, ⟨s₁, .environment elsewhere, s₂⟩, need, ⟨s₃, .files fun _ => {}, later⟩,
        call, last] := by
    rfl
  obtain ⟨-, hfixed⟩ := shared_store_is_fixed s sampleEnvironment (before ++ [e, .store])
  obtain ⟨-, -, hsources, hneeds⟩ :=
    hfixed [] _ _ ⟨hmoments, List.forall_mem_nil _, .inl rfl⟩
  have hquiet : ∀ m ∈ [⟨s, .store, s₁⟩, ⟨s₁, .environment elsewhere, s₂⟩],
      ¬ Event.NeedsLists (Moment.event (σ := Session) m) := by
    rw [List.forall_mem_cons, List.forall_mem_singleton]
    constructor <;> rintro ⟨c, ⟨⟩⟩
  obtain ⟨opened, outcome, -, hfirst, hcalls⟩ :=
    hneeds [_, _] need _ ⟨hmoments, hquiet, .lexicon, rfl⟩
  have hlexicon : (Run.lexicon.on s₂).1 = .ok sampleLexicon := by cbv
  have hanswer : (loading.run.on s₂).1 = .ok (.lexicon sampleLexicon) := by
    show ((Answer.lexicon <$> Run.lexicon).on s₂).1 = _
    rw [Run.on_map, hlexicon]
    rfl
  have houtcome : outcome = .ok sampleLexicon := by
    have hcall := hanswer.symm.trans (hfirst need List.mem_cons_self .lexicon rfl)
    cases outcome with
    | error failure => cases hcall
    | ok lex => cases hcall; rfl
  subst houtcome
  refine ⟨by cbv, hcalls call (.tail _ (.head _)) (.readText "mi") rfl, ?_⟩
  exact hsources last (.tail _ (.tail _ (.tail _ (.tail _ (.tail _ (.head _)))))) rfl

end Session

end Lojban
