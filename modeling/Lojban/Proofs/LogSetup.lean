import Mathlib
import Lojban.Proofs.LogFiles

/-!
# Setting up the log

Setting up the log replaces all handlers, so only the last of several set-ups counts. From then on a
record at or above the level of that set-up is written once to standard output and, if there is a
log file, once to that; a file that only earlier set-ups asked for stays as it is.

Main result: `LogSetup.last_counts`.
-/

namespace Lojban

open Text

/-! ## Specification -/

/-- The location that a file name means by its names alone. -/
def Disk.logPlace (d : Disk) (file : String) : Location :=
  (d.placeOf (Path.ofString file)).filter Path.isName

/-- What the log is asked to be. -/
structure LogSetup where
  file : Option String := none
  level : Level := Level.info
  debug : Bool := false

namespace LogSetup

/-- Sets the log up. -/
def run (c : LogSetup) : Run Unit :=
  Run.setUpLog c.file c.level c.debug

/-- The level from which on records are written. -/
def threshold (c : LogSetup) : Level :=
  if c.debug then Level.debug else c.level

/-- How records are written. -/
def format (c : LogSetup) : LineFormat :=
  if c.debug then .detailed else .plain

/-- Where the log file is. There is one if a name is given that is not empty. -/
def place? (c : LogSetup) (d : Disk) : Option Location :=
  (c.file.filter (· ≠ "")).map d.logPlace

/-- One handler for standard output, and one for the log file if there is one. -/
def handlers (c : LogSetup) (d : Disk) : List Handler :=
  (Sink.stdout :: (c.place? d).toList.map .file).map fun sink =>
    { sink, level := c.threshold, format := c.format }

end LogSetup

/-- The lines of some records. -/
def LineFormat.text (f : LineFormat) (rs : List Record) : String :=
  String.join (rs.map f.line)

namespace Session

/-- Nothing happens between `s` and `s'` but that `text` is written to standard output and to the
file at `place?`, if there is such a place. -/
structure Writes (place? : Option Location) (text : String) (s s' : Session) : Prop where
  session_eq : s' = { s with disk := s'.disk, stdout := s.stdout ++ text }
  file_eq : ∀ loc ∈ place?, ∃ bytes, s.disk.entryAt? loc = some (.file bytes) ∧
    s'.disk.entryAt? loc = some (.file (bytes ++ Utf8.encode text.toList))
  rest_eq : ∀ loc ∉ place?, s'.disk.entryAt? loc = s.disk.entryAt? loc

/-- The log is what `c` asks for on the disk `d`, and its file is there. -/
structure LogsAs (c : LogSetup) (d : Disk) (s : Session) : Prop where
  threshold_eq : s.threshold = c.threshold
  handlers_eq : s.handlers = c.handlers d
  file : ∀ loc ∈ c.place? d, ∃ bytes, s.disk.entryAt? loc = some (.file bytes)

end Session

/-! ## The location of a log file -/

theorem Path.ne_up_of_mem_foldUp {seen names : List String} (hseen : ".." ∉ seen) :
    ".." ∉ foldUp seen names := by
  induction names generalizing seen with
  | nil => simpa [foldUp] using hseen
  | cons name names ih =>
    rw [foldUp]
    apply ih
    split_ifs with hname
    · exact fun hmem => hseen (List.mem_of_mem_drop hmem)
    · simp [hseen, Ne.symm hname]

namespace Disk

/-- Names that do not lead upwards are put one behind the other, without those that name nothing. -/
theorem eq_of_follow {d : Disk} {loc loc' : Location} {names : List String}
    (hup : ".." ∉ names) (h : d.follow loc names = .ok loc') :
    loc' = loc ++ names.filter Path.isName := by
  induction names generalizing loc with
  | nil => cases h; simp
  | cons name names ih =>
    rw [List.mem_cons, not_or] at hup
    obtain ⟨hname, hnames⟩ := hup
    unfold follow at h
    split at h
    · cases h
    · cases h
    · split_ifs at h with hnone hparent hlong
      · have hskip : Path.isName name = false := by
          rcases hnone with rfl | rfl <;> rfl
        rw [ih hnames h, List.filter_cons_of_neg (by simp [hskip])]
      · exact absurd hparent.symm hname
      · have hkeep : Path.isName name = true := by
          simpa [Path.isName] using hnone
        rw [ih hnames h, List.filter_cons_of_pos hkeep, List.append_assoc]
        rfl

theorem names_absolute (d : Disk) (file : String) :
    (d.absolute file).names = d.placeOf (Path.ofString file) := by
  unfold absolute
  dsimp only
  split <;> rfl

theorem origin_absolute (d : Disk) (file : String) : d.origin (d.absolute file).root = [] := by
  have hroot := Path.rootOf_ne_bundled file.toList
  unfold absolute Path.ofString
  dsimp only
  cases hr : Path.rootOf file.toList with
  | bundled => exact absurd hr hroot
  | none | single | double => rfl

theorem eq_logPlace_of_locate {d : Disk} {file : String} {loc : Location}
    (h : d.locate (d.absolute file) = .ok loc) : loc = d.logPlace file := by
  unfold locate at h
  split_ifs at h
  rw [origin_absolute, names_absolute] at h
  cases hfollow : d.follow [] (d.placeOf (Path.ofString file)) with
  | error e => rw [hfollow] at h; cases h
  | ok loc' =>
    rw [hfollow] at h
    cases h
    exact eq_of_follow (Path.ne_up_of_mem_foldUp (by simp)) hfollow

/-- A log file that is opened is there, and nothing else changes. -/
theorem openAppend_absolute {d d' : Disk} {file : String} {loc : Location}
    (h : d.openAppend (d.absolute file) = .ok (loc, d')) :
    loc = d.logPlace file ∧ d'.home = d.home ∧ ∃ bytes, d'.entryAt? loc = some (.file bytes) := by
  unfold openAppend at h
  split at h
  · cases h
  · next place hplace =>
    have hloc := eq_logPlace_of_locate hplace
    split at h
    · next hentry =>
      cases h
      have hne : loc ≠ [] := by
        rintro rfl
        cases hentry
      exact ⟨hloc, rfl, [], entryAt?_put_self _ hne _⟩
    · cases h
    · next bytes hentry =>
      cases h
      exact ⟨hloc, rfl, bytes, hentry⟩

end Disk

/-! ## What is written -/

/-- The line of a record ends in its message and a line feed. -/
theorem LineFormat.exists_line_eq (f : LineFormat) (r : Record) :
    ∃ front, f.line r = front ++ r.message ++ "\n" := by
  cases f with
  | plain =>
    refine ⟨clock ++ ",000 - " ++ r.level.name ++ " - ", ?_⟩
    simp [line, String.intercalate_cons_cons, String.append_assoc]
  | detailed =>
    refine ⟨clock ++ ",000 - " ++ r.source ++ " - " ++ r.level.name ++ " - " ++ recordPlace ++
      " - ", ?_⟩
    simp [line, String.intercalate_cons_cons, String.append_assoc]

/-- A record at or above a level is all that is left of itself there. -/
theorem LineFormat.text_filter_of_le (f : LineFormat) {level : Level} {r : Record}
    (h : level ≤ r.level) : f.text ([r].filter fun r => level ≤ r.level) = f.line r := by
  simp [text, h]

theorem LineFormat.text_append (f : LineFormat) (rs rs' : List Record) :
    f.text (rs ++ rs') = f.text rs ++ f.text rs' := by
  simp [text]

namespace Session

variable {c : LogSetup} {d : Disk} {s s' s'' : Session}

theorem Writes.trans {place? : Option Location} {text text' : String}
    (h : Writes place? text s s') (h' : Writes place? text' s' s'') :
    Writes place? (text ++ text') s s'' := by
  refine ⟨?_, ?_, ?_⟩
  · rw [h'.session_eq, h.session_eq]
    simp only [String.append_assoc]
  · intro loc hloc
    obtain ⟨bytes, hs, hs'⟩ := h.file_eq loc hloc
    obtain ⟨bytes', hs₁, hs''⟩ := h'.file_eq loc hloc
    rw [hs'] at hs₁
    cases hs₁
    refine ⟨bytes, hs, ?_⟩
    rw [hs'', String.toList_append, Utf8.encode_append, List.append_assoc]
  · intro loc hloc
    exact (h'.rest_eq loc hloc).trans (h.rest_eq loc hloc)

namespace LogsAs

variable (h : s.LogsAs c d)

include h

/-- What is written leaves the log as it was set up. -/
theorem of_writes {text : String} (hw : Writes (c.place? d) text s s') : s'.LogsAs c d := by
  constructor
  · rw [hw.session_eq]
    exact h.threshold_eq
  · rw [hw.session_eq]
    exact h.handlers_eq
  · intro loc hloc
    obtain ⟨bytes, -, hbytes⟩ := hw.file_eq loc hloc
    exact ⟨_, hbytes⟩

theorem writes_nothing : Writes (c.place? d) "" s s := by
  refine ⟨by rw [String.append_empty], ?_, fun _ _ => rfl⟩
  intro loc hloc
  obtain ⟨bytes, hbytes⟩ := h.file loc hloc
  exact ⟨bytes, hbytes, by simpa using hbytes⟩

/-- A record is written once to each sink if it is at or above the level of the log, and else not at
all. -/
theorem writes_emit (r : Record) :
    Writes (c.place? d) (c.format.text ([r].filter fun r => c.threshold ≤ r.level)) s
      (s.emit r) := by
  have hemit : s.emit r = (c.handlers d).foldl (handle · r) s :=
    emit_of_handlers_eq_cons h.handlers_eq r
  rw [hemit]
  by_cases hr : c.threshold ≤ r.level
  · rw [c.format.text_filter_of_le hr, LogSetup.handlers]
    cases hplace : c.place? d with
    | none =>
      simp only [Option.toList_none, List.map_cons, List.map_nil, List.foldl_cons, List.foldl_nil,
        handle_stdout hr]
      exact ⟨rfl, fun loc hloc => absurd hloc (Option.not_mem_none loc), fun _ _ => rfl⟩
    | some loc =>
      simp only [Option.toList_some, List.map_cons, List.map_nil, List.foldl_cons, List.foldl_nil,
        handle_stdout hr, handle_file hr]
      refine ⟨rfl, ?_, ?_⟩
      · intro loc' hloc'
        obtain rfl := Option.mem_some_iff.mp hloc'
        obtain ⟨bytes, hbytes⟩ := h.file loc hplace
        exact ⟨bytes, hbytes, Disk.entryAt?_append_self hbytes _⟩
      · intro loc' hloc'
        have hne : loc' ≠ loc := fun heq => hloc' (Option.mem_some_iff.mpr heq.symm)
        exact Disk.entryAt?_append_of_ne _ hne _
  · have hshown : c.format.text ([r].filter fun r => c.threshold ≤ r.level) = "" := by
      simp [LineFormat.text, hr]
    have hbelow : ∀ handler ∈ c.handlers d, ¬ handler.level ≤ r.level := by
      intro handler hmem
      obtain ⟨sink, -, rfl⟩ := List.mem_map.mp hmem
      exact hr
    rw [hshown, foldl_handle_eq_self hbelow]
    exact h.writes_nothing

/-- Records that are let through are written one below the other, from the level of the log on. -/
theorem writes_emitAll (rs : List Record) :
    Writes (c.place? d) (c.format.text (rs.filter fun r => c.threshold ≤ r.level)) s
      (s.emitAll rs) := by
  induction rs generalizing s with
  | nil => exact h.writes_nothing
  | cons r rs ih =>
    have hhead := h.writes_emit r
    have hsplit : (r :: rs).filter (fun r => c.threshold ≤ r.level) =
        ([r].filter fun r => c.threshold ≤ r.level) ++ rs.filter fun r => c.threshold ≤ r.level :=
      List.filter_append [r] rs
    rw [hsplit, LineFormat.text_append]
    exact hhead.trans (ih (h.of_writes hhead))

/-- Records that are made are written if they pass the level of the log. -/
theorem writes_deliverAll (rs : List Record) :
    Writes (c.place? d) (c.format.text (rs.filter fun r => Level.passes c.threshold r.level)) s
      (s.deliverAll rs) := by
  have hagain : (rs.filter fun r => Level.passes c.threshold r.level).filter
      (fun r => c.threshold ≤ r.level) = rs.filter fun r => Level.passes c.threshold r.level := by
    apply List.filter_eq_self.mpr
    intro r hr
    have hpasses := (List.mem_filter.mp hr).2
    rw [Level.passes, Bool.and_eq_true] at hpasses
    exact hpasses.2
  have hwrites := h.writes_emitAll (rs.filter fun r => Level.passes c.threshold r.level)
  rw [hagain, ← h.threshold_eq, ← s.deliverAll_eq_emitAll, h.threshold_eq] at hwrites
  exact hwrites

end LogsAs

end Session

/-! ## What set-ups leave -/

namespace LogSetup

/-- Opening the sinks opens the log file, if there is one. -/
theorem on_openSinks {c : LogSetup} {s s' : Session} {sinks : List Sink}
    (h : (Run.openSinks c.file).on s = (.ok sinks, s')) :
    sinks = .stdout :: (c.place? s.disk).toList.map .file ∧
      (∃ disk, s' = { s with disk }) ∧ s'.disk.home = s.disk.home ∧
      ∀ loc ∈ c.place? s.disk, ∃ bytes, s'.disk.entryAt? loc = some (.file bytes) := by
  unfold Run.openSinks at h
  unfold place?
  split at h
  · next hfile =>
    cases h
    rw [hfile]
    exact ⟨rfl, ⟨_, rfl⟩, rfl, fun loc hloc => absurd hloc (Option.not_mem_none loc)⟩
  · next hfile =>
    cases h
    rw [hfile]
    exact ⟨rfl, ⟨_, rfl⟩, rfl, fun loc hloc => absurd hloc (Option.not_mem_none loc)⟩
  · next file hne hfile =>
    have hname : (some file).filter (· ≠ "") = some file := by
      simpa using hne
    simp only [Run.on_bind, Run.openLog, Run.on_get] at h
    cases hopen : s.disk.openAppend (s.disk.absolute file) with
    | error e => rw [hopen] at h; cases h
    | ok opened =>
      obtain ⟨loc, disk⟩ := opened
      rw [hopen] at h
      cases h
      obtain ⟨rfl, hhome, hentry⟩ := Disk.openAppend_absolute hopen
      rw [hfile, hname]
      refine ⟨rfl, ⟨_, rfl⟩, hhome, ?_⟩
      rintro loc ⟨⟩
      exact hentry

/-- **A set-up that succeeds leaves the log it asks for**, whatever the log was before. -/
theorem on_run {c : LogSetup} {s s' : Session} (h : c.run.on s = (.ok (), s')) :
    s'.LogsAs c s.disk ∧ s'.disk.home = s.disk.home := by
  unfold run Run.setUpLog at h
  simp only [Run.on_bind, Run.on_modify] at h
  rcases hsinks : (Run.openSinks c.file).on { s with handlers := [] } with ⟨outcome, s₁⟩
  rw [hsinks] at h
  cases outcome with
  | error t => cases h
  | ok sinks =>
    cases h
    obtain ⟨rfl, ⟨disk, rfl⟩, hhome, hfile⟩ := on_openSinks hsinks
    -- the announcement goes to the new handlers, as any records do
    let ready : Session :=
      { s with disk, threshold := c.threshold, handlers := c.handlers s.disk }
    have hready : ready.LogsAs c s.disk := ⟨rfl, rfl, hfile⟩
    exact ⟨hready.of_writes (hready.writes_deliverAll Run.announcement),
      (ready.sameOutside_deliverAll Run.announcement).home_eq.trans hhome⟩

end LogSetup

/-- The log stays what it is asked to be where relative names start at the same place. -/
theorem Session.LogsAs.congr {c : LogSetup} {d d' : Disk} {s : Session} (h : s.LogsAs c d)
    (hhome : d.home = d'.home) : s.LogsAs c d' := by
  have hplace : c.place? d' = c.place? d := by
    have hnames : d'.logPlace = d.logPlace := by
      funext file
      unfold Disk.logPlace Disk.placeOf Disk.origin
      rw [hhome]
    rw [LogSetup.place?, hnames, LogSetup.place?]
  refine ⟨h.threshold_eq, ?_, ?_⟩
  · rw [h.handlers_eq, LogSetup.handlers, LogSetup.handlers, hplace]
  · rw [hplace]
    exact h.file

/-- **The last of several set-ups decides**, if none of them fails. -/
theorem LogSetup.on_forM_run {cs : List LogSetup} {c : LogSetup} {s s' : Session}
    (h : ((cs ++ [c]).forM run).on s = (.ok (), s')) : s'.LogsAs c s.disk := by
  induction cs generalizing s with
  | nil =>
    obtain ⟨_, s₁, hrun, hrest⟩ := Run.exists_of_on_bind h
    cases hrest
    exact (on_run hrun).1
  | cons b cs ih =>
    obtain ⟨_, s₁, hrun, hrest⟩ := Run.exists_of_on_bind h
    exact (ih hrest).congr (on_run hrun).2

/-- **After several set-ups the log is what the last of them asks for.** A record at or above its
level is written once to standard output and once to its log file, if it has one, and to no other
file. What is written of it ends in its message and a line feed. -/
theorem LogSetup.last_counts (cs : List LogSetup) (c : LogSetup) (s s' : Session)
    (h : ((cs ++ [c]).forM run).on s = (.ok (), s')) :
    s'.LogsAs c s.disk ∧
    (∀ rs, Session.Writes (c.place? s.disk)
      (c.format.text (rs.filter fun r => c.threshold ≤ r.level)) s' (s'.emitAll rs)) ∧
    (∀ rs, Session.Writes (c.place? s.disk)
      (c.format.text (rs.filter fun r => Level.passes c.threshold r.level)) s'
      (s'.deliverAll rs)) ∧
    ∀ r, c.threshold ≤ r.level →
      ∃ front, Session.Writes (c.place? s.disk) (front ++ r.message ++ "\n") s' (s'.emit r) := by
  have hlogs := on_forM_run h
  refine ⟨hlogs, hlogs.writes_emitAll, hlogs.writes_deliverAll, ?_⟩
  intro r hr
  obtain ⟨front, hline⟩ := c.format.exists_line_eq r
  have hwrites := hlogs.writes_emit r
  rw [c.format.text_filter_of_le hr, hline] at hwrites
  exact ⟨front, hwrites⟩

/-- Of two set-ups with a log file each, the file of the first gets nothing any more. A warning goes
to the file of the second. -/
theorem LogSetup.last_counts_two_files :
    let first : LogSetup := { file := some "old.log" }
    let last : LogSetup := { file := some "new.log", level := Level.warning }
    let r : Record := ⟨Source.root, Level.warning, "low on words"⟩
    ∃ s' : Session, (([first] ++ [last]).forM run).on {} = (.ok (), s') ∧
      s'.handlers = [⟨.stdout, Level.warning, .plain⟩, ⟨.file ["new.log"], Level.warning, .plain⟩] ∧
      (∀ rs, (s'.emitAll rs).disk.entryAt? ["old.log"] = s'.disk.entryAt? ["old.log"] ∧
        Session.Writes (some ["new.log"])
          (LineFormat.plain.text (rs.filter fun r => Level.warning ≤ r.level)) s'
          (s'.emitAll rs)) ∧
      ∃ front,
        Session.Writes (some ["new.log"]) (front ++ "low on words" ++ "\n") s' (s'.emit r) := by
  intro first last r
  have hok : ((([first] ++ [last]).forM run).on {}).1 = .ok () := by cbv
  have hplace : last.place? {} = some ["new.log"] := by decide +kernel
  obtain ⟨hlogs, hwrites, -, hlines⟩ := last_counts [first] last {} _ (Prod.ext hok rfl)
  refine ⟨_, Prod.ext hok rfl, ?_, ?_, ?_⟩
  · rw [hlogs.handlers_eq, handlers, hplace]
    rfl
  · intro rs
    have hrs := hwrites rs
    rw [hplace] at hrs
    exact ⟨hrs.rest_eq _ (by decide), hrs⟩
  · rw [← hplace]
    exact hlines r le_rfl

end Lojban
