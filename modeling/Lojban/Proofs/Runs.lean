import Mathlib.Tactic
import Lojban.Session

/-!
# Operations on sessions

What an operation does to a session, step by step: `Run.on` gives its outcome and the session after
it, one lemma for each way to put operations together. Handing records over changes nothing of a
session but the disk, the records kept and what is printed (`Session.deliverAll_eq`), and does not
look at the shared store (`Session.deliverAll_withStore`).
-/

namespace Lojban

/-! ## Handing records over -/

namespace Session

/-- Records change nothing but the disk and the records kept, and are printed behind what has been
printed. -/
theorem handle_eq (s : Session) (r : Record) (h : Handler) :
    ∃ disk kept shown, s.handle r h = { s with disk, kept, stdout := s.stdout ++ shown } := by
  unfold handle
  split_ifs
  · cases h.sink with
    | stdout => exact ⟨_, _, _, rfl⟩
    | file loc => exact ⟨_, _, "", by rw [String.append_empty]⟩
    | memory => exact ⟨_, _, "", by rw [String.append_empty]⟩
  · exact ⟨_, _, "", by rw [String.append_empty]⟩

theorem foldl_handle_eq (s : Session) (r : Record) (hs : List Handler) :
    ∃ disk kept shown,
      hs.foldl (handle · r) s = { s with disk, kept, stdout := s.stdout ++ shown } := by
  induction hs generalizing s with
  | nil => exact ⟨_, _, "", by rw [String.append_empty]; rfl⟩
  | cons h hs ih =>
    obtain ⟨disk, kept, shown, hhead⟩ := s.handle_eq r h
    obtain ⟨disk', kept', shown', htail⟩ := ih { s with disk, kept, stdout := s.stdout ++ shown }
    exact ⟨disk', kept', shown ++ shown',
      by rw [List.foldl_cons, hhead, htail, ← String.append_assoc]⟩

/-- Where there are handlers, records go to them alone. -/
theorem emit_of_handlers_eq_cons {s : Session} {h : Handler} {hs : List Handler}
    (heq : s.handlers = h :: hs) (r : Record) : s.emit r = (h :: hs).foldl (handle · r) s := by
  rw [emit, heq, List.isEmpty_cons, if_neg Bool.false_ne_true]

theorem emit_eq (s : Session) (r : Record) :
    ∃ disk kept shown warned, s.emit r =
      { s with disk, kept, stdout := s.stdout ++ shown, stderr := s.stderr ++ warned } := by
  unfold emit
  split_ifs
  · exact ⟨_, _, "", _, by rw [String.append_empty]⟩
  · obtain ⟨disk, kept, shown, h⟩ := s.foldl_handle_eq r s.handlers
    exact ⟨disk, kept, shown, "", by rw [h, String.append_empty]⟩

theorem deliver_eq (s : Session) (r : Record) :
    ∃ disk kept shown warned, s.deliver r =
      { s with disk, kept, stdout := s.stdout ++ shown, stderr := s.stderr ++ warned } := by
  unfold deliver
  split_ifs
  · exact s.emit_eq r
  · exact ⟨_, _, "", "", by rw [String.append_empty, String.append_empty]⟩

theorem deliverAll_eq (s : Session) (rs : List Record) :
    ∃ disk kept shown warned, s.deliverAll rs =
      { s with disk, kept, stdout := s.stdout ++ shown, stderr := s.stderr ++ warned } := by
  induction rs generalizing s with
  | nil => exact ⟨_, _, "", "", by rw [String.append_empty, String.append_empty]; rfl⟩
  | cons r rs ih =>
    obtain ⟨disk, kept, shown, warned, hhead⟩ := s.deliver_eq r
    obtain ⟨disk', kept', shown', warned', htail⟩ := ih (s.deliver r)
    refine ⟨disk', kept', shown ++ shown', warned ++ warned', ?_⟩
    rw [deliverAll, List.foldl_cons]
    refine htail.trans ?_
    rw [hhead]
    simp only [String.append_assoc]

/-- Records below the level of the session are not handed over. -/
theorem deliverAll_eq_self {s : Session} {rs : List Record} (h : ∀ r ∈ rs, r.level < s.threshold) :
    s.deliverAll rs = s := by
  induction rs with
  | nil => rfl
  | cons r rs ih =>
    obtain ⟨hr, hrs⟩ := List.forall_mem_cons.mp h
    have hpasses : Level.passes s.threshold r.level = false := by
      rw [Level.passes, Bool.and_eq_false_iff]
      exact .inr (decide_eq_false hr.not_ge)
    rw [deliverAll, List.foldl_cons, deliver, hpasses]
    exact ih hrs

@[simp] theorem deliverAll_nil (s : Session) : s.deliverAll [] = s := rfl

@[simp] theorem env_deliverAll (s : Session) (rs : List Record) :
    (s.deliverAll rs).env = s.env := by
  obtain ⟨_, _, _, _, h⟩ := s.deliverAll_eq rs
  rw [h]

@[simp] theorem store_deliverAll (s : Session) (rs : List Record) :
    (s.deliverAll rs).store = s.store := by
  obtain ⟨_, _, _, _, h⟩ := s.deliverAll_eq rs
  rw [h]

@[simp] theorem threshold_deliverAll (s : Session) (rs : List Record) :
    (s.deliverAll rs).threshold = s.threshold := by
  obtain ⟨_, _, _, _, h⟩ := s.deliverAll_eq rs
  rw [h]

/-- The session with another shared store. -/
def withStore (s : Session) (store : Option Store) : Session :=
  { s with store }

theorem handle_withStore (s : Session) (store : Option Store) (r : Record) (h : Handler) :
    (s.withStore store).handle r h = (s.handle r h).withStore store := by
  unfold handle
  split_ifs
  · cases h.sink <;> rfl
  · rfl

theorem foldl_handle_withStore (s : Session) (store : Option Store) (r : Record)
    (hs : List Handler) :
    hs.foldl (handle · r) (s.withStore store) = (hs.foldl (handle · r) s).withStore store := by
  induction hs generalizing s with
  | nil => rfl
  | cons h hs ih => rw [List.foldl_cons, List.foldl_cons, handle_withStore, ih]

theorem emit_withStore (s : Session) (store : Option Store) (r : Record) :
    (s.withStore store).emit r = (s.emit r).withStore store := by
  unfold emit
  show (if s.handlers.isEmpty then _ else s.handlers.foldl (handle · r) (s.withStore store)) = _
  split_ifs
  · rfl
  · exact s.foldl_handle_withStore store r s.handlers

theorem deliver_withStore (s : Session) (store : Option Store) (r : Record) :
    (s.withStore store).deliver r = (s.deliver r).withStore store := by
  unfold deliver
  show (if Level.passes s.threshold r.level then (s.withStore store).emit r else _) = _
  split_ifs
  · exact s.emit_withStore store r
  · rfl

/-- Where records go does not depend on the shared store. -/
theorem deliverAll_withStore (s : Session) (store : Option Store) (rs : List Record) :
    (s.withStore store).deliverAll rs = (s.deliverAll rs).withStore store := by
  induction rs generalizing s with
  | nil => rfl
  | cons r rs ih =>
    rw [deliverAll, deliverAll, List.foldl_cons, List.foldl_cons, deliver_withStore]
    exact ih (s.deliver r)

end Session

/-! ## Operations -/

namespace Run

variable {α β : Type}

/-- The outcome of an operation and the session after it. -/
def on (x : Run α) (s : Session) : Except Trouble α × Session :=
  x.run.run s

@[simp] theorem on_pure (a : α) (s : Session) : (pure a : Run α).on s = (.ok a, s) := rfl

/-- What comes next goes on where the first operation stopped, unless that met a trouble. -/
theorem on_bind (x : Run α) (f : α → Run β) (s : Session) :
    (x >>= f).on s =
      match x.on s with
      | (.ok a, s') => (f a).on s'
      | (.error t, s') => (.error t, s') := by
  unfold on ExceptT.run StateT.run
  simp only [bind, ExceptT.bind, ExceptT.mk, StateT.bind, ExceptT.bindCont]
  cases x s with
  | mk outcome s' => cases outcome <;> rfl

/-- Operations one after the other succeed only if each of them does. -/
theorem exists_of_on_bind {x : Run α} {f : α → Run β} {b : β} {s s' : Session}
    (h : (x >>= f).on s = (.ok b, s')) :
    ∃ a s₁, x.on s = (.ok a, s₁) ∧ (f a).on s₁ = (.ok b, s') := by
  rw [on_bind] at h
  rcases hx : x.on s with ⟨outcome, s₁⟩
  rw [hx] at h
  cases outcome with
  | error t => cases h
  | ok a => exact ⟨a, s₁, rfl, h⟩

@[simp] theorem on_map (f : α → β) (x : Run α) (s : Session) :
    (f <$> x).on s = ((x.on s).1.map f, (x.on s).2) := by
  rw [map_eq_pure_bind, on_bind]
  rcases x.on s with ⟨outcome, s'⟩
  cases outcome <;> rfl

/-- A trouble is handled in the session it left behind. -/
theorem on_tryCatch (x : Run α) (f : Trouble → Run α) (s : Session) :
    (tryCatch x f).on s =
      match x.on s with
      | (.ok a, s') => (.ok a, s')
      | (.error t, s') => (f t).on s' := by
  unfold on ExceptT.run StateT.run
  simp only [tryCatch, tryCatchThe, MonadExceptOf.tryCatch, ExceptT.tryCatch, ExceptT.mk, bind,
    StateT.bind]
  cases x s with
  | mk outcome s' => cases outcome <;> rfl

@[simp] theorem on_get (s : Session) : (get : Run Session).on s = (.ok s, s) := rfl

@[simp] theorem on_modify (f : Session → Session) (s : Session) :
    (modify f : Run Unit).on s = (.ok (), f s) := rfl

@[simp] theorem on_takeLogged (x : Logged α) (s : Session) :
    (takeLogged x).on s = (.ok x.value, s.deliverAll x.records) := rfl

/-! ## Printing -/

/-- The lines as they are printed, each with a line feed behind it. -/
def printed (lines : List String) : String :=
  String.join (lines.map (· ++ "\n"))

theorem printed_cons (line : String) (lines : List String) :
    printed (line :: lines) = line ++ "\n" ++ printed lines := by
  simp [printed]

/-- Lines are printed one below the other. -/
theorem on_forM_print (lines : List String) (s : Session) :
    (lines.forM print).on s = (.ok (), { s with stdout := s.stdout ++ printed lines }) := by
  induction lines generalizing s with
  | nil =>
    show _ = (Except.ok (), { s with stdout := s.stdout ++ "" })
    rw [String.append_empty]
    rfl
  | cons line lines ih =>
    show (print line >>= fun _ => lines.forM print).on s = _
    rw [on_bind, print, on_modify]
    dsimp only
    rw [ih, printed_cons]
    simp only [String.append_assoc]

/-! ## Setting up the log -/

theorem on_openSinks (logFile : Option String) (s : Session) :
    ∃ outcome disk, (openSinks logFile).on s = (outcome, { s with disk }) := by
  unfold openSinks
  split
  · exact ⟨_, _, rfl⟩
  · exact ⟨_, _, rfl⟩
  · next file _ =>
    simp only [on_bind, openLog, on_get]
    cases s.disk.openAppend (s.disk.absolute file) with
    | error e => exact ⟨_, _, rfl⟩
    | ok opened => exact ⟨_, _, rfl⟩

/-- The records with which a run starts. -/
def announcement : List Record :=
  [⟨Source.root, Level.debug, rule⟩, ⟨Source.root, Level.debug, "valsi run started - " ++ clock⟩,
    ⟨Source.root, Level.debug, rule⟩]

theorem on_setUpLog {logFile : Option String} {level : Level} {debug : Bool} {s s' : Session}
    (h : (setUpLog logFile level debug).on s = (.ok (), s')) :
    let threshold := if debug then Level.debug else level
    ∃ disk handlers, s' = Session.deliverAll { s with disk, threshold, handlers } announcement := by
  obtain ⟨outcome, disk, hsinks⟩ := on_openSinks logFile { s with handlers := [] }
  simp only [setUpLog, on_bind, on_modify, hsinks] at h
  cases outcome with
  | error t => cases h
  | ok sinks =>
    cases h
    exact ⟨_, _, rfl⟩

/-! ## The shared store -/

theorem on_sharedStore_some {s : Session} {store : Store} (h : s.store = some store) :
    sharedStore.on s = (.ok store, s) := by
  simp only [sharedStore, on_bind, on_get, h, on_pure]

/-- The shared store is made from the environment at its first use. -/
theorem on_sharedStore_none {s : Session} (h : s.store = none) :
    sharedStore.on s =
      let found := Sources.ofVariables s.env
      let store : Store := { sources := found.value }
      (.ok store, (s.deliverAll found.records).withStore store) := by
  simp only [sharedStore, on_bind, on_get, h]
  rfl

/-- The lexicon is what `get` gives, and the store is kept as `get` leaves it. -/
theorem on_lexicon_of_sharedStore {s s' : Session} {store : Store}
    (h : sharedStore.on s = (.ok store, s')) :
    lexicon.on s =
      let got := store.get s'.view
      (got.value.1, (s'.deliverAll got.records).withStore got.value.2) := by
  simp only [lexicon, on_bind, h, on_get, on_takeLogged]
  rcases (store.get s'.view).value with ⟨outcome, store'⟩
  cases outcome <;> rfl

end Run

end Lojban
