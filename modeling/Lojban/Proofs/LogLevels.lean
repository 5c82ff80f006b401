import Lojban.Proofs.LogFiles
import Lojban.Proofs.ManyLines
import Lojban.Proofs.RecordLevels
import Lojban.Proofs.ScreenLog

/-!
# Log levels

The level of a session decides which records are handed over, and nothing else. A `Query` is carried
out twice, in sessions that differ only in that one is at a higher level: the outcome is the same,
and the records are those of the lower level without the ones that are below the higher.

There is one way in which records get back at the outcome: they may go to a file that is a word
list. `Disk.Apart` rules this out. Where all records are only kept there is nothing to rule out.

Main result: `Query.level_only_filters`.
-/

namespace Lojban

/-! ## Specification -/

/-- What may be asked of the program: a text, lines with or without a tracker, or the lists of a
store. Without a lexicon, that of the shared store is used. -/
inductive Query where
  | text (text : String) (given : Option Lexicon)
  | lines (lines : List String) (given : Option Lexicon) (tracker : Option Tracker)
  | lists (store : Store)

namespace Query

/-- What a query gives when no trouble stops it. A store gives its lexicon or its trouble, and is
kept for the next time. -/
def Result : Query → Type
  | .text .. => Tree
  | .lines .. => List LineResult × Option Tracker
  | .lists _ => Except Trouble Lexicon × Store

/-- Carries a query out. -/
def run : (q : Query) → Run q.Result
  | .text t given => Run.readText t given
  | .lines ls given tracker => Run.readLines ls given tracker
  | .lists store => do Run.takeLogged (store.get (← get).view)

/-- The sources of the lists that a query may have to load. -/
def sources? (s : Session) : Query → Option Sources
  | .text _ none | .lines _ none _ => some s.sharedStore.sources
  | .text _ (some _) | .lines _ (some _) _ => none
  | .lists store => some store.sources

end Query

/-- None of the lists is at one of the places. -/
def Disk.Apart (d : Disk) (places : List Location) (sources : Sources) : Prop :=
  ∀ path ∈ sources.paths, ∀ loc, d.locate path.route = .ok loc → loc ∉ places

/-- The session at another level and with other handlers, which have kept no record so far. -/
def Session.logging (s : Session) (level : Level) (hs : List Handler) : Session :=
  { s with threshold := level, handlers := hs, kept := #[] }

/-- The session at another level, where all records that are handed over are kept from now on. -/
def Session.recording (s : Session) (level : Level) : Session :=
  s.logging level [{ sink := .memory }]

/-- `seen` comes to the same as `all`, and keeps the records of `all` without those below `level`,
in the same order. -/
structure Run.Filters {α : Type} (level : Level) (all seen : Except Trouble α × Session) :
    Prop where
  outcome_eq : seen.1 = all.1
  store_eq : seen.2.store = all.2.store
  kept_eq : seen.2.kept.toList = all.2.kept.toList.filter fun r => level ≤ r.level

/-! ## Results with records -/

namespace Logged

variable {α β : Type} {level : Level}

/-- The results are the same, and so are the records from `level` on. -/
structure SameFrom (level : Level) (x y : Logged α) : Prop where
  value_eq : x.value = y.value
  kept_eq : x.kept level = y.kept level

theorem SameFrom.refl (level : Level) (x : Logged α) : x.SameFrom level x :=
  ⟨rfl, rfl⟩

theorem SameFrom.map {x y : Logged α} (h : x.SameFrom level y) (f : α → β) :
    (f <$> x).SameFrom level (f <$> y) :=
  ⟨congrArg f h.value_eq, h.kept_eq⟩

theorem SameFrom.bind {x y : Logged α} {f g : α → Logged β} (h : x.SameFrom level y)
    (hf : ∀ a, (f a).SameFrom level (g a)) : (x >>= f).SameFrom level (y >>= g) := by
  constructor
  · rw [value_bind, value_bind, h.value_eq]
    exact (hf _).value_eq
  · rw [kept_bind, kept_bind, h.kept_eq, h.value_eq, (hf _).kept_eq]

end Logged

open Logged

namespace Lexicon

variable {level : Level} (hlevel : Level.debug ≤ level) (lex : Lexicon)

include hlevel

/-- Above debug, nothing of what reading a text records is kept, whether or not it is recorded. -/
theorem sameFrom_read (text : String) :
    (lex.read level text).SameFrom level (lex.read Level.debug text) := by
  refine ⟨by rw [value_read, value_read], ?_⟩
  -- the two readings differ in the records they make, but only in some that neither keeps
  rcases hlevel.eq_or_lt with rfl | hlt
  · rfl
  · rw [(lex.atMost_read level text).kept_eq_nil hlt,
      (lex.atMost_read Level.debug text).kept_eq_nil hlt]

theorem sameFrom_readLine (number : ℕ) (line : String) :
    (lex.readLine level number line).SameFrom level (lex.readLine Level.debug number line) := by
  unfold readLine
  dsimp only
  split_ifs
  · exact .refl ..
  · exact (lex.sameFrom_read hlevel _).bind fun outcome => .refl ..

theorem sameFrom_readLinesFrom (number : ℕ) (tracker : Option Tracker) (lines : List String) :
    (lex.readLinesFrom level number tracker lines).SameFrom level
      (lex.readLinesFrom Level.debug number tracker lines) := by
  induction lines generalizing number tracker with
  | nil => exact .refl ..
  | cons line lines ih =>
    cases tracker with
    | none =>
      refine (SameFrom.refl ..).bind fun tracker => ?_
      exact (lex.sameFrom_readLine hlevel number line).bind fun first => (ih ..).map _
    | some t =>
      refine (SameFrom.refl ..).bind fun t => (SameFrom.refl ..).bind fun tracker => ?_
      exact (lex.sameFrom_readLine hlevel number line).bind fun first => (ih ..).map _

end Lexicon

/-! ## Records that are kept -/

/-- The record once for each of the handlers that keeps it. -/
def Record.copies (hs : List Handler) (r : Record) : List Record :=
  (hs.filter fun h => h.sink = .memory ∧ h.level ≤ r.level).map fun _ => r

theorem Record.filter_copies (p : Record → Bool) (hs : List Handler) (r : Record) :
    (copies hs r).filter p = if p r then copies hs r else [] := by
  unfold copies
  rw [List.filter_map]
  by_cases hr : p r
  · simp [hr, Function.comp_def]
  · simp [hr, Function.comp_def]

theorem Record.filter_flatMap_copies (p : Record → Bool) (hs : List Handler) (rs : List Record) :
    (rs.flatMap (copies hs)).filter p = (rs.filter p).flatMap (copies hs) := by
  induction rs with
  | nil => rfl
  | cons r rs ih =>
    rw [List.flatMap_cons, List.filter_append, ih, filter_copies]
    by_cases hr : p r
    · rw [if_pos hr, List.filter_cons_of_pos hr, List.flatMap_cons]
    · rw [if_neg hr, List.filter_cons_of_neg hr, List.nil_append]

namespace Session

theorem kept_handle (s : Session) (r : Record) (h : Handler) :
    (s.handle r h).kept.toList = s.kept.toList ++ r.copies [h] := by
  rcases h with ⟨sink, level, format⟩
  by_cases hr : level ≤ r.level <;> cases sink <;> simp [handle, Record.copies, hr]

theorem kept_foldl_handle (s : Session) (r : Record) (hs : List Handler) :
    (hs.foldl (handle · r) s).kept.toList = s.kept.toList ++ r.copies hs := by
  induction hs generalizing s with
  | nil => exact (List.append_nil _).symm
  | cons h hs ih =>
    have hsplit : r.copies (h :: hs) = r.copies [h] ++ r.copies hs := by
      unfold Record.copies
      rw [← List.map_append, ← List.filter_append]
      rfl
    rw [List.foldl_cons, ih, kept_handle, hsplit, List.append_assoc]

theorem kept_emit (s : Session) (r : Record) :
    (s.emit r).kept.toList = s.kept.toList ++ r.copies s.handlers := by
  unfold emit
  split_ifs with hnone
  · rw [List.isEmpty_iff.mp hnone]
    exact (List.append_nil _).symm
  · exact s.kept_foldl_handle r s.handlers

/-- Records are kept in their order, each as often as there are handlers for it. -/
theorem kept_emitAll (s : Session) (rs : List Record) :
    (s.emitAll rs).kept.toList = s.kept.toList ++ rs.flatMap (Record.copies s.handlers) := by
  induction rs generalizing s with
  | nil => exact (List.append_nil _).symm
  | cons r rs ih =>
    rw [emitAll_cons, ih, handlers_emit, kept_emit, List.flatMap_cons, List.append_assoc]

end Session

/-! ## Pairs of sessions -/

namespace Session

/-- `s` is a session at `level` and `s'` one at debug. Nothing has happened to one of them that has
not happened to the other, but for the records below `level`. -/
structure Matches (level : Level) (s s' : Session) : Prop where
  threshold : s.threshold = level
  threshold' : s'.threshold = Level.debug
  handlers_eq : s.handlers = s'.handlers
  disk : Disk.SameOutside s'.logPlaces s'.disk s.disk
  env_eq : s.env = s'.env
  store_eq : s.store = s'.store
  kept_eq : s.kept.toList = s'.kept.toList.filter fun r => level ≤ r.level

variable {level : Level} {s s' : Session}

theorem matches_logging (s : Session) (level : Level) (hs : List Handler) :
    (s.logging level hs).Matches level (s.logging Level.debug hs) :=
  ⟨rfl, rfl, rfl, .refl .., rfl, rfl, rfl⟩

theorem Matches.withStore (h : s.Matches level s') (store : Option Store) :
    (s.withStore store).Matches level (s'.withStore store) :=
  ⟨h.threshold, h.threshold', h.handlers_eq, h.disk, h.env_eq, rfl, h.kept_eq⟩

variable {α : Type} (hlevel : Level.debug ≤ level)

include hlevel

/-- What passes at a level is what passes at debug, without what is below the level. -/
theorem passes_eq (l : Level) :
    Level.passes level l = (decide (level ≤ l) && Level.passes Level.debug l) := by
  unfold Level.passes
  by_cases hl : level ≤ l
  · have hdebug : Level.debug ≤ l := hlevel.trans hl
    simp [hl, hdebug]
  · simp [hl]

theorem Matches.deliverAll (h : s.Matches level s') {x y : Logged α} (hxy : x.SameFrom level y) :
    (s.deliverAll x.records).Matches level (s'.deliverAll y.records) := by
  refine ⟨?_, ?_, ?_, ?_, ?_, ?_, ?_⟩
  · rw [threshold_deliverAll, h.threshold]
  · rw [threshold_deliverAll, h.threshold']
  · rw [handlers_deliverAll, handlers_deliverAll, h.handlers_eq]
  · have hs := s.sameOutside_deliverAll x.records
    have hs' := s'.sameOutside_deliverAll y.records
    rw [logPlaces, h.handlers_eq] at hs
    rw [logPlaces_deliverAll]
    exact hs'.symm.trans (h.disk.trans hs)
  · rw [env_deliverAll, env_deliverAll, h.env_eq]
  · rw [store_deliverAll, store_deliverAll, h.store_eq]
  · -- what `s` keeps of `y.records` is what `s'` keeps of them, filtered once more
    have hpasses : y.records.filter (fun r => Level.passes level r.level) =
        (y.records.filter fun r => Level.passes Level.debug r.level).filter
          fun r => level ≤ r.level := by
      rw [List.filter_filter]
      congr 1
      funext r
      exact passes_eq hlevel r.level
    have hkept : x.records.filter (fun r => Level.passes level r.level) =
        y.records.filter fun r => Level.passes level r.level := hxy.kept_eq
    rw [deliverAll_eq_emitAll, deliverAll_eq_emitAll, kept_emitAll, kept_emitAll, h.threshold,
      h.threshold', List.filter_append, Record.filter_flatMap_copies, ← hpasses, hkept, h.kept_eq,
      h.handlers_eq]

end Session

/-! ## Lists -/

/-- The lists read the same in both sessions, unless records go to one of them. -/
theorem Session.Matches.agreesAt {level : Level} {s s' : Session} (h : s.Matches level s')
    {sources : Sources} (hapart : s'.disk.Apart s'.logPlaces sources) :
    s.view.AgreesAt s'.view sources.paths := by
  intro path hpath rs
  have hs := s.sameOutside_deliverAll rs
  rw [Session.logPlaces, h.handlers_eq] at hs
  calc (s.view rs).read path.route = s'.disk.read path.route :=
        (h.disk.trans hs).read_eq (hapart path hpath)
    _ = (s'.view rs).read path.route :=
        ((s'.sameOutside_deliverAll rs).read_eq (hapart path hpath)).symm

theorem Disk.Apart.deliverAll {s : Session} {sources : Sources}
    (h : s.disk.Apart s.logPlaces sources) (rs : List Record) :
    (s.deliverAll rs).disk.Apart (s.deliverAll rs).logPlaces sources := by
  intro path hpath loc hloc
  rw [(s.sameOutside_deliverAll rs).locate_eq] at hloc
  rw [Session.logPlaces_deliverAll]
  exact h path hpath loc hloc

/-- A store looks at nothing but what is read at the paths of its lists. -/
theorem Store.get_congr {view view' : DiskView} {store : Store}
    (h : view.AgreesAt view' store.sources.paths) : store.get view' = store.get view := by
  rcases store with ⟨sources, state⟩
  cases state with
  | fresh =>
    have hload : Lexicon.load view' sources = Lexicon.load view sources :=
      Lexicon.load_congr_paths h (by simp [Sources.paths]) (by simp [Sources.paths])
        (by simp [Sources.paths])
    simp only [get, hload]
  | loaded | failed => rfl

/-! ## Pairs of runs -/

namespace Run

variable {level : Level} {s s' : Session} {α β : Type}

/-- Two runs, at `level` and at debug, have the same outcome and lead to sessions that match. -/
structure Agree (level : Level) (x x' : Except Trouble α × Session) : Prop where
  outcome_eq : x.1 = x'.1
  sessions : x.2.Matches level x'.2

theorem Agree.filters {x x' : Except Trouble α × Session} (h : Agree level x x') :
    Filters level x' x :=
  ⟨h.outcome_eq, h.sessions.store_eq, h.sessions.kept_eq⟩

theorem Agree.bind {x y : Run α} {f g : α → Run β} (h : Agree level (x.on s) (y.on s'))
    (hf : ∀ a {t t' : Session}, t.Matches level t' → Agree level ((f a).on t) ((g a).on t')) :
    Agree level ((x >>= f).on s) ((y >>= g).on s') := by
  rw [on_bind, on_bind]
  obtain ⟨houtcome, hsessions⟩ := h
  rcases hx : x.on s with ⟨outcome, t⟩
  rcases hy : y.on s' with ⟨outcome', t'⟩
  rw [hx, hy] at houtcome hsessions
  cases outcome with
  | ok a => cases houtcome; exact hf a hsessions
  | error e => cases houtcome; exact ⟨rfl, hsessions⟩

/-- Each run goes on from its own session. -/
theorem Agree.get {f : Session → Run α} (h : Agree level ((f s).on s) ((f s').on s')) :
    Agree level ((get >>= f).on s) ((get >>= f).on s') := by
  rw [on_bind, on_bind, on_get, on_get]
  exact h

variable (hlevel : Level.debug ≤ level) (h : s.Matches level s')

include hlevel h

theorem agree_takeLogged {x y : Logged α} (hxy : x.SameFrom level y) :
    Agree level ((takeLogged x).on s) ((takeLogged y).on s') := by
  rw [on_takeLogged, on_takeLogged]
  exact ⟨congrArg Except.ok hxy.value_eq, h.deliverAll hlevel hxy⟩

/-- The shared store is made in the same way, and no list is touched by that. -/
theorem agree_sharedStore {sources : Sources}
    (hapart : s'.disk.Apart s'.logPlaces sources) :
    ∃ t t', sharedStore.on s = (.ok s'.sharedStore, t) ∧
      sharedStore.on s' = (.ok s'.sharedStore, t') ∧ t.Matches level t' ∧
      t'.disk.Apart t'.logPlaces sources := by
  cases hstore : s'.store with
  | some store =>
    have hshared : s'.sharedStore = store := by rw [Session.sharedStore, hstore]; rfl
    rw [hshared]
    exact ⟨s, s', on_sharedStore_some (h.store_eq.trans hstore),
      on_sharedStore_some hstore, h, hapart⟩
  | none =>
    have hmade := on_sharedStore_none (h.store_eq.trans hstore)
    rw [h.env_eq] at hmade
    have hshared : s'.sharedStore = { sources := (Sources.ofVariables s'.env).value } := by
      rw [Session.sharedStore, hstore]
      rfl
    rw [hshared]
    exact ⟨_, _, hmade, on_sharedStore_none hstore,
      (h.deliverAll hlevel (.refl ..)).withStore _, hapart.deliverAll _⟩

/-- The lexicon is loaded in the same way, unless records go to one of the lists. -/
theorem agree_lexicon (hapart : s'.disk.Apart s'.logPlaces s'.sharedStore.sources) :
    Agree level (lexicon.on s) (lexicon.on s') := by
  obtain ⟨t, t', ht, ht', hmatches, hapart'⟩ := agree_sharedStore hlevel h hapart
  rw [on_lexicon_of_sharedStore ht, on_lexicon_of_sharedStore ht',
    Store.get_congr (hmatches.agreesAt hapart')]
  exact ⟨rfl, (hmatches.deliverAll hlevel (.refl ..)).withStore _⟩

theorem agree_lexiconOr {given : Option Lexicon}
    (hapart : given = none → s'.disk.Apart s'.logPlaces s'.sharedStore.sources) :
    Agree level ((lexiconOr given).on s) ((lexiconOr given).on s') := by
  cases given with
  | none => exact agree_lexicon hlevel h (hapart rfl)
  | some lex => exact ⟨rfl, h⟩

theorem agree_readText (text : String) {given : Option Lexicon}
    (hapart : given = none → s'.disk.Apart s'.logPlaces s'.sharedStore.sources) :
    Agree level ((readText text given).on s) ((readText text given).on s') := by
  refine (agree_lexiconOr hlevel h hapart).bind fun lex t t' ht => .get ?_
  rw [ht.threshold, ht.threshold']
  refine (agree_takeLogged hlevel ht (lex.sameFrom_read hlevel text)).bind fun outcome t t' ht => ?_
  cases outcome <;> exact ⟨rfl, ht⟩

theorem agree_readLines (lines : List String) {given : Option Lexicon} (tracker : Option Tracker)
    (hapart : given = none → s'.disk.Apart s'.logPlaces s'.sharedStore.sources) :
    Agree level ((readLines lines given tracker).on s)
      ((readLines lines given tracker).on s') := by
  refine (agree_lexiconOr hlevel h hapart).bind fun lex t t' ht => .get ?_
  rw [ht.threshold, ht.threshold']
  exact agree_takeLogged hlevel ht (lex.sameFrom_readLinesFrom hlevel 1 tracker lines)

end Run

/-! ## Queries -/

namespace Query

variable {level : Level}

/-- **Sessions that match stay so over a query**, and its outcome is the same in both, unless
records go to a list that the query has to load. -/
theorem agree {s s' : Session} (hlevel : Level.debug ≤ level) (h : s.Matches level s') (q : Query)
    (hapart : ∀ sources ∈ q.sources? s', s'.disk.Apart s'.logPlaces sources) :
    Run.Agree level (q.run.on s) (q.run.on s') := by
  cases q with
  | text t given =>
    apply Run.agree_readText hlevel h
    rintro rfl
    exact hapart _ rfl
  | lines ls given tracker =>
    apply Run.agree_readLines hlevel h
    rintro rfl
    exact hapart _ rfl
  | lists store =>
    apply Run.Agree.get
    rw [Store.get_congr (h.agreesAt (hapart _ rfl))]
    exact Run.agree_takeLogged hlevel h (.refl ..)

theorem filters_logging (q : Query) (s : Session) (hlevel : Level.debug ≤ level)
    {hs : List Handler}
    (hapart : ∀ sources ∈ q.sources? s, s.disk.Apart (hs.filterMap Handler.place?) sources) :
    Run.Filters level (q.run.on (s.logging Level.debug hs)) (q.run.on (s.logging level hs)) :=
  (q.agree hlevel (s.matches_logging level hs) hapart).filters

/-- **A higher level leaves the outcome of a query as it is, and leaves out the records below it.**
All others are handed over as at debug, in the same order. With any handlers this is so, unless one
of them writes to a list that the query may have to load. -/
theorem level_only_filters (q : Query) (s : Session) (hlevel : Level.debug ≤ level) :
    Run.Filters level (q.run.on (s.recording Level.debug)) (q.run.on (s.recording level)) ∧
    ∀ hs : List Handler,
      (∀ sources ∈ q.sources? s, s.disk.Apart (hs.filterMap Handler.place?) sources) →
      Run.Filters level (q.run.on (s.logging Level.debug hs)) (q.run.on (s.logging level hs)) := by
  refine ⟨q.filters_logging s hlevel ?_, fun hs hapart => q.filters_logging s hlevel hapart⟩
  -- a handler that keeps records writes to no place at all
  intro _ _ path _ loc _ hloc
  cases hloc

/-- A log on standard output and in a file, where all records are kept as well. -/
def busyHandlers : List Handler :=
  [{ sink := .stdout }, { sink := .memory }, { sink := .file ["run.log"], format := .detailed }]

/-- Of the records for two lines, one of them refused, information leaves the progress. Lists that
are missing are looked for in the same way while a log file is written. -/
theorem level_only_filters_two_queries :
    let s : Session := { disk := { entries := [(["run.log"], .file [])] } }
    let lex : Lexicon := { cmavo := .ofList ["mi"] }
    let lines : Query := .lines ["mi", "qle"] (some lex) (some { progress := { total := 2 } })
    let lists : Query := .lists { sources := sampleSources }
    Level.debug ≤ Level.info ∧
      Run.Filters Level.info (lines.run.on (s.recording Level.debug))
        (lines.run.on (s.recording Level.info)) ∧
      (lines.run.on (s.recording Level.debug)).2.kept.toList.map Record.level =
        [20, 10, 10, 10, 20, 10, 10, 10, 10, 10] ∧
      (∀ sources ∈ lists.sources? s,
        s.disk.Apart (busyHandlers.filterMap Handler.place?) sources) ∧
      Run.Filters Level.info (lists.run.on (s.logging Level.debug busyHandlers))
        (lists.run.on (s.logging Level.info busyHandlers)) := by
  intro s lex lines lists
  have hlevel : Level.debug ≤ Level.info := by decide
  have hapart : ∀ sources ∈ lists.sources? s,
      s.disk.Apart (busyHandlers.filterMap Handler.place?) sources := by
    rintro _ ⟨⟩ path hpath loc hloc
    have hmissing : sampleSources.paths.all
        fun path => (s.disk.locate path.route).isOk = false := by cbv
    have hfails := List.all_eq_true.mp hmissing path hpath
    rw [hloc] at hfails
    cases hfails
  exact ⟨hlevel, (lines.level_only_filters s hlevel).1, by decide +kernel, hapart,
    (lists.level_only_filters s hlevel).2 busyHandlers hapart⟩

end Query

end Lojban
