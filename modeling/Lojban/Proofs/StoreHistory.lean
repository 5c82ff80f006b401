import Mathlib
import Lojban.Proofs.History
import Lojban.Proofs.Loading
import Lojban.Session

/-!
# Histories of a store

A store in a session, where `get` is called again and again and the files change in between. The
first `get` settles the store: from then on it holds a whole lexicon or the failure to load one, and
every `get` gives that, whatever has become of the files.

Main result: `loads_once`.
-/

namespace Lojban

namespace Store

/-! ## Specification -/

/-- What happens to a store. -/
inductive Event where
  | get
  /-- Files are written, deleted or both. -/
  | files (change : Disk → Disk)

/-- A store and the session it is used in. -/
structure World where
  session : Session
  store : Store

namespace World

/-- What `get` gives. -/
def answer (w : World) : Except Trouble Lexicon :=
  (w.store.get w.session.view).value.1

/-- What becomes of the store and its session. -/
def step (w : World) : Event → World
  | .get =>
    let got := w.store.get w.session.view
    { session := w.session.deliverAll got.records, store := got.value.2 }
  | .files change => { w with session.disk := change w.session.disk }

end World

/-- What a store knows once loading its lists has come to an outcome. -/
def State.settled : Except LoadError Lexicon → State
  | .ok lex => .loaded lex
  | .error e => .failed e

/-- Of the disk that `view` shows, `get` looks at no lists but those at the paths `ps`. -/
def LooksAt (s : Store) (view : DiskView) (ps : List Path) : Prop :=
  ∀ view' : DiskView, view.AgreesAt view' ps → s.get view' = s.get view

/-! ## One call -/

/-- A settled store gives its outcome, makes no record and stays as it is. -/
theorem get_settled (sources : Sources) (outcome : Except LoadError Lexicon) (view : DiskView) :
    get view ⟨sources, .settled outcome⟩ =
      pure (outcome.mapError LoadError.trouble, ⟨sources, .settled outcome⟩) := by
  cases outcome <;> rfl

/-- A fresh store gives what loading comes to, and is settled by it. -/
theorem value_get_fresh {sources : Sources} {view : DiskView}
    {outcome : Except LoadError Lexicon}
    (h : (Lexicon.load view sources).value = outcome.mapError LoadError.trouble) :
    (get view ⟨sources, .fresh⟩).value =
      (outcome.mapError LoadError.trouble, ⟨sources, .settled outcome⟩) := by
  simp only [get, Logged.value_bind, h]
  cases outcome <;> rfl

theorem State.fresh_or_settled (state : State) :
    state = .fresh ∨ ∃ outcome, state = .settled outcome := by
  cases state with
  | fresh => exact .inl rfl
  | loaded lex => exact .inr ⟨.ok lex, rfl⟩
  | failed e => exact .inr ⟨.error e, rfl⟩

/-- What keeps a store from giving a lexicon is a trouble with its lists. -/
theorem ofLists_of_get {view : DiskView} {s : Store} {t : Trouble}
    (h : (s.get view).value.1 = .error t) : t.OfLists := by
  obtain ⟨sources, state⟩ := s
  rcases state.fresh_or_settled with rfl | ⟨outcome, rfl⟩
  · unfold get at h
    dsimp only [Logged.value_bind] at h
    split at h
    · cases h
    · cases h
      exact .failure _
    · next ht =>
      cases h
      exact Lexicon.ofLists_of_load ht
  · rw [get_settled] at h
    cases outcome <;> cases h
    exact .failure _

theorem looksAt_settled (sources : Sources) (outcome : Except LoadError Lexicon) (view : DiskView) :
    LooksAt ⟨sources, .settled outcome⟩ view [] := by
  intro view' _
  rw [get_settled, get_settled]

theorem looksAt_fresh {sources : Sources} {view : DiskView} {opened : List Path}
    {outcome : Except LoadError Lexicon} (h : Lexicon.Loads view sources opened outcome) :
    LooksAt ⟨sources, .fresh⟩ view opened := by
  intro view' hagree
  simp only [get]
  rw [Lexicon.load_congr h hagree]

theorem isLoaded_settled (sources : Sources) (outcome : Except LoadError Lexicon) :
    isLoaded ⟨sources, .settled outcome⟩ = outcome.isOk := by
  cases outcome <;> rfl

/-! ## Histories -/

namespace World

/-- Nothing that happens unsettles a store. -/
theorem store_step_settled {w : World} {sources : Sources} {outcome : Except LoadError Lexicon}
    (h : w.store = ⟨sources, .settled outcome⟩) (e : Event) :
    (w.step e).store = ⟨sources, .settled outcome⟩ := by
  cases e with
  | get => simp only [step, h, get_settled, Logged.value_pure]
  | files change => exact h

/-- Without a `get` a store stays as it is. -/
theorem store_step_of_ne_get {w : World} {e : Event} (h : e ≠ .get) :
    (w.step e).store = w.store := by
  cases e with
  | get => exact absurd rfl h
  | files change => rfl

end World

/-- **A store loads its lists once.** Before the first `get` nothing is loaded. The first `get` loads
the lists as they are then, in order and up to the first that fails. Every `get` gives the outcome of
that, be it a whole lexicon or a failure; the store counts as loaded from then on if it is a lexicon
and never if it is a failure; and no later `get` looks at any list. -/
theorem loads_once (session : Session) {sources : Sources} (hnul : sources.NulFree)
    (es : List Event) :
    let ms := moments World.step ⟨session, { sources }⟩ es
    ((∀ m ∈ ms, m.event ≠ .get) → ∀ m ∈ ms,
      m.before.store.isLoaded = false ∧ m.after.store.isLoaded = false) ∧
    ∀ quiet first later, FirstMoment (· = .get) ms quiet first later →
      (∀ m ∈ quiet, m.before.store.isLoaded = false ∧ m.after.store.isLoaded = false) ∧
      first.before.store.isLoaded = false ∧
      ∃ opened outcome, Lexicon.Loads first.before.session.view sources opened outcome ∧
        first.before.store.LooksAt first.before.session.view opened ∧
        (∀ m ∈ first :: later,
          m.after.store = ⟨sources, .settled outcome⟩ ∧ m.after.store.isLoaded = outcome.isOk ∧
          (m.event = .get → m.before.answer = outcome.mapError LoadError.trouble)) ∧
        ∀ m ∈ later, m.before.store.LooksAt m.before.session.view [] := by
  intro ms
  have hquiet : ∀ (w : World) (e : Event), e ≠ .get → w.store = { sources } →
      (w.step e).store = { sources } :=
    fun w e he hw => (World.store_step_of_ne_get he).trans hw
  refine ⟨?_, ?_⟩
  · intro hget m hm
    obtain ⟨hbefore, hafter, -⟩ := forall_moments hquiet rfl hget m hm
    rw [hbefore, hafter]
    exact ⟨rfl, rfl⟩
  · intro quiet first later h
    obtain ⟨hquiets, hfirst, hstep, es, rfl⟩ := h.cut hquiet rfl
    obtain ⟨opened, outcome, hloads, hvalue⟩ := Lexicon.load_loads first.before.session.view hnul
    have hgot := value_get_fresh hvalue
    have hsettled : first.after.store = ⟨sources, .settled outcome⟩ := by
      rw [hstep, h.first_event, World.step, hfirst, hgot]
    have hkeep : ∀ (w : World) (e : Event), w.store = ⟨sources, .settled outcome⟩ →
        (w.step e).store = ⟨sources, .settled outcome⟩ :=
      fun w e hw => World.store_step_settled hw e
    have hlater := forall_moments_always hkeep hsettled es
    refine ⟨?_, by rw [hfirst]; rfl, opened, outcome, hloads, ?_, ?_, ?_⟩
    · intro m hm
      obtain ⟨hbefore, hafter⟩ := hquiets m hm
      rw [hbefore, hafter]
      exact ⟨rfl, rfl⟩
    · rw [hfirst]
      exact looksAt_fresh hloads
    · rw [List.forall_mem_cons]
      refine ⟨⟨hsettled, by rw [hsettled, isLoaded_settled], ?_⟩, ?_⟩
      · intro _
        rw [World.answer, hfirst, hgot]
      · intro m hm
        obtain ⟨hbefore, hafter, -⟩ := hlater m hm
        refine ⟨hafter, by rw [hafter, isLoaded_settled], ?_⟩
        intro _
        rw [World.answer, hbefore, get_settled]
        rfl
    · intro m hm
      obtain ⟨hbefore, -, -⟩ := hlater m hm
      rw [hbefore]
      exact looksAt_settled sources outcome _

end Store

/-! ### Lists that come and go -/

/-- Short lists in a directory, and files next to it: one with blanks around a text, one with line
ends of two characters around it as well, one that holds no text. -/
def sampleDisk : Disk where
  entries := [(["in.txt"], .file (Text.Utf8.encode " mi\n".toList)),
    (["dos.txt"], .file (Text.Utf8.encode "\r\n mi\r\n".toList)), (["bad.txt"], .file [0xFF]),
    (["lists"], .directory), (["lists", "cmavo.txt"], .file (Text.Utf8.encode "mi\n".toList)),
    (["lists", "gismu.txt"], .file (Text.Utf8.encode "klama\n".toList)),
    (["lists", "rafsi.txt"], .file (Text.Utf8.encode "kla\n".toList))]

/-- The lists are looked for in the directory `lists`. -/
def sampleEnvironment : Environment where
  values := [("VALSI_WORDLIST_DIR", "lists")]
  nulFree := by simp [NulFree]

/-- The words in these lists. -/
def sampleLexicon : Lexicon where
  cmavo := .ofList ["mi"]
  gismu := .ofList ["klama"]
  rafsi := .ofList ["kla"]

/-- Where these lists are looked for. -/
def sampleSources : Sources :=
  (Sources.ofVariables sampleEnvironment.values).value

/-- Lists that are written after the first `get` come too late, and lists that are removed then are
not missed. -/
theorem Store.loads_once_late_change :
    let world (d : Disk) : World := ⟨{ disk := d }, { sources := sampleSources }⟩
    let failure : LoadError := ⟨"lists/cmavo.txt", .disk .noEntry "lists/cmavo.txt"⟩
    sampleSources.NulFree ∧
      ((world {}).answer = .error failure.trouble ∧
        (((world {}).step .get).step (.files fun _ => sampleDisk)).answer =
          .error failure.trouble) ∧
      (world sampleDisk).answer = .ok sampleLexicon ∧
        (((world sampleDisk).step .get).step (.files fun _ => {})).answer = .ok sampleLexicon := by
  intro world failure
  have hnul : sampleSources.NulFree := sampleEnvironment.nulFree_sources
  have hlate : ∀ (d : Disk) (change : Disk → Disk),
      (((world d).step .get).step (.files change)).answer = (world d).answer := by
    intro d change
    obtain ⟨-, -, opened, outcome, -, -, hanswers, -⟩ :=
      (loads_once { disk := d } hnul [.get, .files change, .get]).2 [] _ _ ⟨rfl, by simp, rfl⟩
    simp only [moments, List.forall_mem_cons] at hanswers
    obtain ⟨⟨-, -, hfirst⟩, -, ⟨-, -, hlast⟩, -⟩ := hanswers
    exact (hlast trivial).trans (hfirst trivial).symm
  have hload : (Lexicon.load (world {}).session.view sampleSources).value =
      Except.mapError LoadError.trouble (.error failure) := by cbv
  have hfails : (world {}).answer = .error failure.trouble :=
    congrArg Prod.fst (value_get_fresh hload)
  have hloads : (world sampleDisk).answer = .ok sampleLexicon := by cbv
  exact ⟨hnul, ⟨hfails, (hlate _ _).trans hfails⟩, hloads, (hlate _ _).trans hloads⟩

end Lojban
