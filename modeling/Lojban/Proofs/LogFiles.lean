import Lojban.Proofs.Runs

/-!
# Log files

Handing a record over may append to files, the log files, and changes nothing else on the disk. Two
disks that differ in the bytes of some files only (`Disk.SameOutside`) have the same routes, and the
files elsewhere have the same bytes on both.

Main results: `Disk.SameOutside.read_eq`, `Session.sameOutside_deliverAll`.
-/

namespace Lojban

/-! ## Entries -/

namespace Disk

theorem lookup_filter_ne {loc loc' : Location} (h : loc' ≠ loc) (es : List (Location × Entry)) :
    (es.filter (·.1 ≠ loc)).lookup loc' = es.lookup loc' := by
  induction es with
  | nil => rfl
  | cons e es ih =>
    obtain ⟨at_, entry⟩ := e
    by_cases hat : at_ = loc
    · have hskip : (loc' == at_) = false := by simpa [hat] using h
      rw [List.filter_cons_of_neg (by simpa using hat), List.lookup_cons, hskip, ih]
    · rw [List.filter_cons_of_pos (by simpa using hat), List.lookup_cons, List.lookup_cons, ih]

/-- Other locations keep what stands there. -/
theorem entryAt?_put_of_ne (d : Disk) {loc loc' : Location} (h : loc' ≠ loc) (e : Entry) :
    (d.put loc e).entryAt? loc' = d.entryAt? loc' := by
  unfold entryAt? put
  have hskip : (loc' == loc) = false := by simpa using h
  rw [List.lookup_cons, hskip, lookup_filter_ne h]

/-- Only a directory stands at the root. -/
theorem ne_nil_of_file {d : Disk} {loc : Location} {bytes : List UInt8}
    (h : d.entryAt? loc = some (.file bytes)) : loc ≠ [] := by
  rintro rfl
  cases h

/-- Bytes are appended to a file behind those it has. -/
theorem entryAt?_append_self {d : Disk} {loc : Location} {old : List UInt8}
    (h : d.entryAt? loc = some (.file old)) (bytes : List UInt8) :
    (d.append loc bytes).entryAt? loc = some (.file (old ++ bytes)) := by
  simp only [append, h]
  exact d.entryAt?_put_self (ne_nil_of_file h) _

theorem entryAt?_append_of_ne (d : Disk) {loc loc' : Location} (h : loc' ≠ loc)
    (bytes : List UInt8) : (d.append loc bytes).entryAt? loc' = d.entryAt? loc' := by
  unfold append
  split
  · exact d.entryAt?_put_of_ne h _
  · rfl

theorem home_append (d : Disk) (loc : Location) (bytes : List UInt8) :
    (d.append loc bytes).home = d.home := by
  unfold append
  split <;> rfl

/-! ## Disks that differ in some files -/

/-- Nothing differs but the bytes of files at `places`. -/
structure SameOutside (places : List Location) (d d' : Disk) : Prop where
  home_eq : d'.home = d.home
  entry : ∀ loc, d'.entryAt? loc = d.entryAt? loc ∨
    loc ∈ places ∧ ∃ bytes bytes',
      d.entryAt? loc = some (.file bytes) ∧ d'.entryAt? loc = some (.file bytes')

namespace SameOutside

variable {places : List Location} {d d' d'' : Disk}

theorem refl (places : List Location) (d : Disk) : SameOutside places d d :=
  ⟨rfl, fun _ => .inl rfl⟩

theorem symm (h : SameOutside places d d') : SameOutside places d' d := by
  refine ⟨h.home_eq.symm, ?_⟩
  intro loc
  rcases h.entry loc with heq | ⟨hmem, bytes, bytes', hd, hd'⟩
  · exact .inl heq.symm
  · exact .inr ⟨hmem, bytes', bytes, hd', hd⟩

theorem trans (h : SameOutside places d d') (h' : SameOutside places d' d'') :
    SameOutside places d d'' := by
  refine ⟨h'.home_eq.trans h.home_eq, ?_⟩
  intro loc
  rcases h.entry loc with heq | ⟨hmem, bytes, bytes', hd, hd'⟩
  · rw [← heq]
    exact h'.entry loc
  · rcases h'.entry loc with heq' | ⟨-, -, bytes'', -, hd''⟩
    · exact .inr ⟨hmem, bytes, bytes', hd, heq'.trans hd'⟩
    · exact .inr ⟨hmem, bytes, bytes'', hd, hd''⟩

/-- A file that is appended to is one of the places. -/
theorem append (d : Disk) {loc : Location} (hmem : loc ∈ places) (bytes : List UInt8) :
    SameOutside places d (d.append loc bytes) := by
  refine ⟨d.home_append loc bytes, ?_⟩
  intro loc'
  by_cases hloc : loc' = loc
  · subst hloc
    cases hentry : d.entryAt? loc' with
    | none => exact .inl (by simp only [Disk.append, hentry])
    | some e =>
      cases e with
      | directory => exact .inl (by simp only [Disk.append, hentry])
      | file old => exact .inr ⟨hmem, old, _, rfl, entryAt?_append_self hentry bytes⟩
  · exact .inl (d.entryAt?_append_of_ne hloc bytes)

variable (h : SameOutside places d d')

include h

theorem entryAt?_eq {loc : Location} (hloc : loc ∉ places) : d'.entryAt? loc = d.entryAt? loc := by
  rcases h.entry loc with heq | ⟨hmem, -⟩
  · exact heq
  · exact absurd hmem hloc

/-- Names lead to the same location, for the directories are the same. -/
theorem follow_eq (loc : Location) (names : List String) :
    d'.follow loc names = d.follow loc names := by
  induction names generalizing loc with
  | nil => rfl
  | cons name names ih =>
    rcases h.entry loc with heq | ⟨-, bytes, bytes', hd, hd'⟩
    · simp only [follow, heq, ih]
    · -- a file on both disks: no name leads on from it
      simp only [follow, hd, hd']

theorem locate_eq (way : Route) : d'.locate way = d.locate way := by
  have horigin : d'.origin way.root = d.origin way.root := by
    unfold origin
    split
    · exact h.home_eq
    · rfl
    · rfl
    · rfl
  simp only [locate, horigin, h.follow_eq]

/-- A file elsewhere has the same bytes on both disks. -/
theorem read_eq {way : Route} (hway : ∀ loc, d.locate way = .ok loc → loc ∉ places) :
    d'.read way = d.read way := by
  simp only [read, h.locate_eq]
  cases hlocate : d.locate way with
  | error e => rfl
  | ok loc => simp only [h.entryAt?_eq (hway loc hlocate)]

end SameOutside

end Disk

/-! ## Records -/

namespace Session

/-- Hands records on in order. -/
def emitAll (s : Session) (rs : List Record) : Session :=
  rs.foldl emit s

theorem handle_stdout {r : Record} {level : Level} (h : level ≤ r.level) (s : Session)
    (format : LineFormat) :
    s.handle r ⟨.stdout, level, format⟩ = { s with stdout := s.stdout ++ format.line r } :=
  if_pos h

theorem handle_file {r : Record} {level : Level} (h : level ≤ r.level) (s : Session)
    (loc : Location) (format : LineFormat) :
    s.handle r ⟨.file loc, level, format⟩ =
      { s with disk := s.disk.append loc (Text.Utf8.encode (format.line r).toList) } :=
  if_pos h

/-- Handlers pass over records below their level. -/
theorem foldl_handle_eq_self {r : Record} {hs : List Handler}
    (h : ∀ handler ∈ hs, ¬ handler.level ≤ r.level) (s : Session) :
    hs.foldl (handle · r) s = s := by
  induction hs with
  | nil => rfl
  | cons handler hs ih =>
    obtain ⟨hhead, htail⟩ := List.forall_mem_cons.mp h
    rw [List.foldl_cons, handle, if_neg hhead]
    exact ih htail

theorem emitAll_cons (s : Session) (r : Record) (rs : List Record) :
    s.emitAll (r :: rs) = (s.emit r).emitAll rs := rfl

theorem threshold_emit (s : Session) (r : Record) : (s.emit r).threshold = s.threshold := by
  obtain ⟨_, _, _, _, h⟩ := s.emit_eq r
  rw [h]

theorem handlers_emit (s : Session) (r : Record) : (s.emit r).handlers = s.handlers := by
  obtain ⟨_, _, _, _, h⟩ := s.emit_eq r
  rw [h]

theorem handlers_deliverAll (s : Session) (rs : List Record) :
    (s.deliverAll rs).handlers = s.handlers := by
  obtain ⟨_, _, _, _, h⟩ := s.deliverAll_eq rs
  rw [h]

/-- Of the records that are made, those that are important enough are handed on. -/
theorem deliverAll_eq_emitAll (s : Session) (rs : List Record) :
    s.deliverAll rs = s.emitAll (rs.filter fun r => Level.passes s.threshold r.level) := by
  induction rs generalizing s with
  | nil => rfl
  | cons r rs ih =>
    show (s.deliver r).deliverAll rs = _
    rw [List.filter_cons, deliver]
    by_cases hr : Level.passes s.threshold r.level
    · rw [if_pos hr, if_pos hr, emitAll_cons, ← s.threshold_emit r]
      exact ih (s.emit r)
    · rw [if_neg hr, if_neg hr]
      exact ih s

end Session

/-! ## Log files -/

/-- Where a handler writes to, if that is a file. -/
def Handler.place? (h : Handler) : Option Location :=
  match h.sink with
  | .file loc => some loc
  | _ => none

namespace Session

/-- Where the log files of a session are. -/
def logPlaces (s : Session) : List Location :=
  s.handlers.filterMap Handler.place?

theorem logPlaces_deliverAll (s : Session) (rs : List Record) :
    (s.deliverAll rs).logPlaces = s.logPlaces := by
  rw [logPlaces, handlers_deliverAll, logPlaces]

theorem sameOutside_handle (s : Session) (r : Record) (h : Handler) {places : List Location}
    (hplace : ∀ loc ∈ h.place?, loc ∈ places) :
    Disk.SameOutside places s.disk (s.handle r h).disk := by
  unfold handle
  split_ifs
  · rcases h with ⟨sink, level, format⟩
    cases sink with
    | stdout | memory => exact .refl ..
    | file loc => exact .append _ (hplace loc rfl) _
  · exact .refl ..

theorem sameOutside_foldl_handle (s : Session) (r : Record) (hs : List Handler)
    {places : List Location} (hplaces : ∀ h ∈ hs, ∀ loc ∈ h.place?, loc ∈ places) :
    Disk.SameOutside places s.disk (hs.foldl (handle · r) s).disk := by
  induction hs generalizing s with
  | nil => exact .refl ..
  | cons h hs ih =>
    obtain ⟨hhead, htail⟩ := List.forall_mem_cons.mp hplaces
    exact (s.sameOutside_handle r h hhead).trans (ih _ htail)

theorem sameOutside_emit (s : Session) (r : Record) :
    Disk.SameOutside s.logPlaces s.disk (s.emit r).disk := by
  unfold emit
  split_ifs
  · exact .refl ..
  · apply s.sameOutside_foldl_handle
    intro h hmem loc hloc
    exact List.mem_filterMap.mpr ⟨h, hmem, hloc⟩

theorem sameOutside_emitAll (s : Session) (rs : List Record) :
    Disk.SameOutside s.logPlaces s.disk (s.emitAll rs).disk := by
  induction rs generalizing s with
  | nil => exact .refl ..
  | cons r rs ih =>
    have hrest := ih (s.emit r)
    rw [logPlaces, handlers_emit] at hrest
    exact (s.sameOutside_emit r).trans hrest

/-- **Records change nothing on the disk but the log files.** -/
theorem sameOutside_deliverAll (s : Session) (rs : List Record) :
    Disk.SameOutside s.logPlaces s.disk (s.deliverAll rs).disk := by
  rw [deliverAll_eq_emitAll]
  exact s.sameOutside_emitAll _

end Session

end Lojban
