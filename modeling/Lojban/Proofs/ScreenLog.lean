import Lojban.Proofs.RecordLevels
import Lojban.Proofs.StoreHistory

/-!
# The log on the screen

A command that is run without `--debug` and without a log file shows its records on standard output,
from warnings on, and the records change nothing else. So loading the lists shows nothing unless it
fails, and then one line.

Main results: `Session.OnScreen.on_lexicon_of_load`, `Session.OnScreen.on_lexicon`.
-/

namespace Lojban

/-! ## Specification -/

/-- What is shown of some records. -/
def screenText (rs : List Record) : String :=
  String.join ((rs.filter fun r => Level.warning ≤ r.level).map LineFormat.plain.line)

/-- The record of a failure to load the lists. -/
def LoadError.record (e : LoadError) : Record :=
  ⟨Source.lexicon, Level.error, "Wordlist initialization failed: " ++ e.message⟩

/-- What loading the lists shows: a line if it fails. -/
def loadNotice : Except LoadError Lexicon → String
  | .ok _ => ""
  | .error e => LineFormat.plain.line e.record

namespace Session

/-- Records are shown on standard output, from warnings on, and go nowhere else. -/
structure OnScreen (s : Session) : Prop where
  threshold : s.threshold = Level.warning
  handlers : s.handlers = [{ sink := .stdout, level := Level.warning }]

/-- The session in which a command is carried out if no switch asks for another log. -/
def withScreen (s : Session) : Session :=
  { s with
    threshold := Level.warning
    handlers := [{ sink := .stdout, level := Level.warning }] }

/-- The session once `text` has been printed as well. -/
def withOutput (s : Session) (text : String) : Session :=
  { s with stdout := s.stdout ++ text }

/-- The shared store, as it is or as it is made when it is first used. -/
def sharedStore (s : Session) : Store :=
  s.store.getD { sources := (Sources.ofVariables s.env).value }

/-- What the shared store gives when it is asked for its lists. -/
def lists (s : Session) : Except Trouble Lexicon :=
  (s.sharedStore.get s.disk.still).value.1

end Session

/-! ## Records on the screen -/

theorem screenText_append (rs rs' : List Record) :
    screenText (rs ++ rs') = screenText rs ++ screenText rs' := by
  simp [screenText]

/-- Records below a warning are not shown. -/
theorem screenText_of_lt {rs : List Record} (h : ∀ r ∈ rs, r.level < Level.warning) :
    screenText rs = "" := by
  have hnone : rs.filter (fun r => Level.warning ≤ r.level) = [] := by
    rw [List.filter_eq_nil_iff]
    intro r hr
    simpa using h r hr
  rw [screenText, hnone]
  rfl

namespace Session

@[simp] theorem withOutput_empty (s : Session) : s.withOutput "" = s := by
  rw [withOutput, String.append_empty]

theorem withOutput_append (s : Session) (a b : String) :
    s.withOutput (a ++ b) = (s.withOutput a).withOutput b := by
  rw [withOutput, withOutput, withOutput, String.append_assoc]

theorem onScreen_withScreen (s : Session) : s.withScreen.OnScreen := ⟨rfl, rfl⟩

namespace OnScreen

variable {s : Session} (h : s.OnScreen)

include h

theorem output (text : String) : (s.withOutput text).OnScreen :=
  ⟨h.threshold, h.handlers⟩

theorem store (store : Option Store) : (s.withStore store).OnScreen :=
  ⟨h.threshold, h.handlers⟩

theorem deliver_eq (r : Record) : s.deliver r = s.withOutput (screenText [r]) := by
  have hemit : s.emit r = s.handle r { sink := .stdout, level := Level.warning } :=
    emit_of_handlers_eq_cons h.handlers r
  rw [deliver, h.threshold, hemit]
  by_cases hr : Level.warning ≤ r.level
  · have hpasses : Level.passes Level.warning r.level = true := by
      rw [Level.passes, Bool.and_eq_true, decide_eq_true_eq, decide_eq_true_eq]
      exact ⟨lt_of_lt_of_le (by decide) hr, hr⟩
    have hshown : screenText [r] = LineFormat.plain.line r := by simp [screenText, hr]
    rw [if_pos hpasses, hshown, handle, if_pos hr]
    rfl
  · have hpasses : Level.passes Level.warning r.level = false := by
      rw [Level.passes, Bool.and_eq_false_iff]
      exact .inr (decide_eq_false hr)
    have hshown : screenText [r] = "" := screenText_of_lt (by simpa using hr)
    rw [hpasses, if_neg (by decide), hshown, withOutput_empty]

/-- Records are shown one below the other. -/
theorem deliverAll_eq (rs : List Record) : s.deliverAll rs = s.withOutput (screenText rs) := by
  induction rs generalizing s with
  | nil => exact (s.withOutput_empty).symm
  | cons r rs ih =>
    have hsplit : screenText (r :: rs) = screenText [r] ++ screenText rs :=
      screenText_append [r] rs
    rw [deliverAll, List.foldl_cons, h.deliver_eq, hsplit, withOutput_append]
    exact ih (h.output _)

/-- Records below a warning change nothing. -/
theorem deliverAll_eq_self {rs : List Record} (hrs : ∀ r ∈ rs, r.level < Level.warning) :
    s.deliverAll rs = s := by
  rw [h.deliverAll_eq, screenText_of_lt hrs, withOutput_empty]

theorem view_eq : s.view = s.disk.still := by
  funext rs
  rw [view, h.deliverAll_eq]
  rfl

end OnScreen

end Session

/-! ## Loading the lists -/

namespace Store

variable {sources : Sources} {view : DiskView} {outcome : Except LoadError Lexicon}
  (h : (Lexicon.load view sources).value = outcome.mapError LoadError.trouble)

include h

/-- A fresh store makes the records of loading, and one more if that fails. -/
theorem records_get_fresh : (get view ⟨sources, .fresh⟩).records =
    (Lexicon.load view sources).records ++
      match outcome with
      | .ok _ => []
      | .error e => [e.record] := by
  simp only [get, Logged.records_bind, h]
  cases outcome <;> rfl

/-- Only a failure to load the lists is shown. -/
theorem screenText_get_fresh :
    screenText (get view ⟨sources, .fresh⟩).records = loadNotice outcome := by
  have hload : screenText (Lexicon.load view sources).records = "" := by
    apply screenText_of_lt
    intro r hr
    exact lt_of_le_of_lt ((Lexicon.atMost_load view sources).le r hr) (by decide)
  rw [records_get_fresh h, screenText_append, hload, String.empty_append]
  cases outcome with
  | ok lex => rfl
  | error e =>
    have herror : Level.warning ≤ e.record.level := by
      show Level.warning ≤ Level.error
      decide
    simp [screenText, loadNotice, herror]

end Store

namespace Session.OnScreen

variable {s : Session} (h : s.OnScreen)

include h

/-- Asking for the shared store shows nothing. -/
theorem on_sharedStore :
    Run.sharedStore.on s = (.ok s.sharedStore, s.withStore (some s.sharedStore)) := by
  cases hstore : s.store with
  | some store =>
    rw [Run.on_sharedStore_some hstore, sharedStore, hstore, Option.getD_some, ← hstore]
    rfl
  | none =>
    have hquiet : ∀ r ∈ (Sources.ofVariables s.env).records, r.level < Level.warning := by
      intro r hr
      exact lt_of_le_of_lt ((Sources.atMost_ofVariables s.env).le r hr) (by decide)
    rw [Run.on_sharedStore_none hstore, sharedStore, hstore, Option.getD_none]
    dsimp only
    rw [h.deliverAll_eq_self hquiet]

/-- The lexicon is what the shared store gives, and what is shown comes from that. -/
theorem on_lexicon_eq :
    let got := s.sharedStore.get s.disk.still
    Run.lexicon.on s =
      (s.lists, (s.withOutput (screenText got.records)).withStore (some got.value.2)) := by
  have hmade := h.store (some s.sharedStore)
  intro got
  rw [Run.on_lexicon_of_sharedStore h.on_sharedStore, hmade.view_eq]
  simp only [hmade.deliverAll_eq]
  rfl

/-- **Loading the lists shows one line if it fails, and else nothing.** The outcome is kept. -/
theorem on_lexicon_of_load {outcome : Except LoadError Lexicon}
    (hfresh : s.sharedStore.state = .fresh)
    (hload : (Lexicon.load s.disk.still s.sharedStore.sources).value =
      outcome.mapError LoadError.trouble) :
    Run.lexicon.on s = (outcome.mapError LoadError.trouble,
      (s.withOutput (loadNotice outcome)).withStore
        (some ⟨s.sharedStore.sources, .settled outcome⟩)) := by
  have hstore : s.sharedStore = ⟨s.sharedStore.sources, .fresh⟩ := by rw [← hfresh]
  have hvalue := Store.value_get_fresh hload
  have hshown := Store.screenText_get_fresh hload
  rw [← hstore] at hvalue hshown
  rw [h.on_lexicon_eq]
  simp only [lists, hvalue, hshown]

/-- Asking for the lists gives a lexicon or a failure, whether or not they were loaded before. -/
theorem on_lexicon (hnul : s.sharedStore.sources.NulFree) :
    ∃ (outcome : Except LoadError Lexicon) (notice : String) (store : Option Store),
      s.lists = outcome.mapError LoadError.trouble ∧
      Run.lexicon.on s =
        (outcome.mapError LoadError.trouble, (s.withOutput notice).withStore store) := by
  obtain ⟨outcome, houtcome⟩ : ∃ outcome : Except LoadError Lexicon,
      s.lists = outcome.mapError LoadError.trouble := by
    rcases hstore : s.sharedStore with ⟨sources, state⟩
    rw [hstore] at hnul
    rcases state.fresh_or_settled with rfl | ⟨outcome, rfl⟩
    · obtain ⟨-, outcome, -, hvalue⟩ := Lexicon.load_loads s.disk.still hnul
      exact ⟨outcome, by rw [lists, hstore, Store.value_get_fresh hvalue]⟩
    · exact ⟨outcome, by rw [lists, hstore, Store.get_settled, Logged.value_pure]⟩
  exact ⟨outcome, _, _, houtcome, by rw [← houtcome]; exact h.on_lexicon_eq⟩

/-- Nothing is shown of lists that are loaded. -/
theorem on_lexicon_ok {lex : Lexicon} (hlists : s.lists = .ok lex) :
    ∃ store, Run.lexicon.on s = (.ok lex, s.withStore store) := by
  have hquiet : ∀ r ∈ (s.sharedStore.get s.disk.still).records, r.level < Level.warning := by
    intro r hr
    exact lt_of_le_of_lt ((Store.atMost_get hlists).le r hr) (by decide)
  have hlex := h.on_lexicon_eq
  dsimp only at hlex
  rw [hlists, screenText_of_lt hquiet, withOutput_empty] at hlex
  exact ⟨_, hlex⟩

end Session.OnScreen

end Lojban
