import Mathlib.Tactic
import Lojban.Lexicon
import Lojban.Proofs.SourcePaths

/-!
# Loading the lists of a lexicon

What a word list holds, and why it may not be loaded, said of the disk it is on: `WordSet.Holds` and
`WordSet.Fails`. `Lexicon.Loads` puts the three lists together: they are opened in order, up to the
first that fails, and each is read from the disk as it is when it is opened.

Main results:
* `Lexicon.load_loads`: loading gives a lexicon or the failure of a list, as `Loads` says.
* `Lexicon.load_congr`: no list is looked at but those that are opened.
-/

namespace Lojban

open Text

/-! ## Specification -/

/-- The failure of a list, as what stops an operation. -/
def LoadError.trouble (e : LoadError) : Trouble :=
  .failure (.unreadable e)

/-- What can keep lists from being loaded: one of them fails, or a path is none at all. -/
inductive Trouble.OfLists : Trouble → Prop
  | failure (e : LoadError) : OfLists (.failure (.unreadable e))
  | nulInPath : OfLists .nulInPath

/-- The disk on which the list at `path` is opened: the record of that has been made. -/
def DiskView.opening (view : DiskView) (path : Path) : Disk :=
  view [WordSet.loading path]

/-- Two views show the same at the paths `ps`, whatever records have been written. -/
def DiskView.AgreesAt (view view' : DiskView) (ps : List Path) : Prop :=
  ∀ p ∈ ps, ∀ rs, (view rs).read p.route = (view' rs).read p.route

namespace WordSet

/-- The file at `path` reads as `text`. -/
def Reads (d : Disk) (path : Path) (text : List Char) : Prop :=
  ∃ bytes, d.read path.route = .ok bytes ∧ Utf8.decodeChunked chunkBytes bytes = .ok text

/-- The list at `path` has an entry, and `words` are its entries. -/
def Holds (d : Disk) (path : Path) (marker : String) (words : WordSet) : Prop :=
  ∃ text, Reads d path text ∧ entries marker text ≠ [] ∧
    ∀ word, word ∈ words ↔ word ∈ entries marker text

/-- Why the list at `path` is not loaded: the file cannot be opened, or it is not UTF-8, or there is
no entry in it. -/
inductive Fails (d : Disk) (path : Path) (marker : String) : LoadError → Prop
  | disk {problem : DiskProblem} {name : String}
      (h : d.read path.route = .error (.problem problem name)) :
      Fails d path marker ⟨path.text, .disk problem name⟩
  | encoding {bytes : List UInt8} {fault : Utf8.Fault} (h : d.read path.route = .ok bytes)
      (hfault : Utf8.decodeChunked chunkBytes bytes = .error fault) :
      Fails d path marker ⟨path.text, .encoding fault⟩
  | noEntries {text : List Char} (h : Reads d path text) (hempty : entries marker text = []) :
      Fails d path marker ⟨path.text, .noEntries⟩

end WordSet

namespace Lexicon

/-- What the disk shows once the particles have been read. -/
def gismuView (view : DiskView) (s : Sources) : DiskView :=
  view.after (WordSet.load view s.cmavoPath s.marker).records

/-- What the disk shows once the content words have been read as well. -/
def rafsiView (view : DiskView) (s : Sources) : DiskView :=
  (gismuView view s).after (WordSet.load (gismuView view s) s.gismuPath s.marker).records

/-- Loading the lists of `s` comes to an outcome, and `opened` are the lists that are opened for it:
all three, or those up to the first that fails. -/
inductive Loads (view : DiskView) (s : Sources) : List Path → Except LoadError Lexicon → Prop
  | cmavo {e : LoadError} (hc : WordSet.Fails (view.opening s.cmavoPath) s.cmavoPath s.marker e) :
      Loads view s [s.cmavoPath] (.error e)
  | gismu {cmavo : WordSet} {e : LoadError}
      (hc : WordSet.Holds (view.opening s.cmavoPath) s.cmavoPath s.marker cmavo)
      (hg : WordSet.Fails ((gismuView view s).opening s.gismuPath) s.gismuPath s.marker e) :
      Loads view s [s.cmavoPath, s.gismuPath] (.error e)
  | rafsi {cmavo gismu : WordSet} {e : LoadError}
      (hc : WordSet.Holds (view.opening s.cmavoPath) s.cmavoPath s.marker cmavo)
      (hg : WordSet.Holds ((gismuView view s).opening s.gismuPath) s.gismuPath s.marker gismu)
      (hr : WordSet.Fails ((rafsiView view s).opening s.rafsiPath) s.rafsiPath s.marker e) :
      Loads view s s.paths (.error e)
  | all {lex : Lexicon}
      (hc : WordSet.Holds (view.opening s.cmavoPath) s.cmavoPath s.marker lex.cmavo)
      (hg : WordSet.Holds ((gismuView view s).opening s.gismuPath) s.gismuPath s.marker lex.gismu)
      (hr : WordSet.Holds ((rafsiView view s).opening s.rafsiPath) s.rafsiPath s.marker lex.rafsi) :
      Loads view s s.paths (.ok lex)

end Lexicon

theorem DiskView.AgreesAt.after {view view' : DiskView} {ps : List Path}
    (h : view.AgreesAt view' ps) (rs : List Record) :
    (view.after rs).AgreesAt (view'.after rs) ps :=
  fun p hp more => h p hp (rs ++ more)

/-! ## Opening files -/

namespace Disk

theorem locate_ne_nul {d : Disk} {way : Route} (h : NulFree way.text) :
    d.locate way ≠ .error .nul := by
  unfold locate
  rw [if_neg (by simpa [NulFree] using h)]
  split_ifs
  · simp
  · simp
  · cases d.follow (d.origin way.root) way.names <;> simp [Except.mapError]

/-- What keeps a file whose path has no NUL character from being opened is a problem of the disk. -/
theorem read_ne_nul {d : Disk} {way : Route} (h : NulFree way.text) : d.read way ≠ .error .nul := by
  have hlocate : d.locate way ≠ .error .nul := locate_ne_nul h
  unfold read
  split
  · next e he =>
    intro heq
    cases heq
    exact hlocate he
  · split <;> simp

end Disk

/-! ## One list -/

namespace WordSet

/-- What a list comes to on a disk. -/
def content (d : Disk) (path : Path) (marker : String) : Except Trouble WordSet :=
  match readText d path.route with
  | .error t => .error (loadTrouble path t)
  | .ok text => (ofText path marker text).value

theorem value_load (view : DiskView) (path : Path) (marker : String) :
    (load view path marker).value = content (view.opening path) path marker := by
  simp only [load, content, DiskView.opening, Logged.value_bind]
  cases readText (view [loading path]) path.route <;> rfl

/-- Loading looks at nothing but what is read at the path. -/
theorem load_congr {view view' : DiskView} {ps : List Path} (h : view.AgreesAt view' ps)
    {path : Path} (hpath : path ∈ ps) (marker : String) :
    load view' path marker = load view path marker := by
  have htext : readText (view' [loading path]) path.route =
      readText (view [loading path]) path.route := by
    rw [readText, readText, h path hpath]
  rw [load, load]
  simp only [htext]

theorem value_ofText (path : Path) (marker : String) (text : List Char) :
    (ofText path marker text).value =
      if entries marker text = [] then .error (LoadError.trouble ⟨path.text, .noEntries⟩)
      else .ok (Std.TreeSet.ofList (entries marker text)) := by
  simp only [ofText, List.isEmpty_iff]
  split_ifs <;> rfl

theorem content_of_reads {d : Disk} {path : Path} {text : List Char} (h : Reads d path text)
    (marker : String) : content d path marker = (ofText path marker text).value := by
  obtain ⟨bytes, hbytes, htext⟩ := h
  rw [content, readText, hbytes]
  simp only [htext]
  rfl

theorem content_of_fails {d : Disk} {path : Path} {marker : String} {e : LoadError}
    (h : Fails d path marker e) : content d path marker = .error e.trouble := by
  cases h with
  | disk h => rw [content, readText, h]; rfl
  | encoding h hfault =>
    rw [content, readText, h]
    simp only [hfault]
    rfl
  | noEntries h hempty => rw [content_of_reads h, value_ofText, if_pos hempty]

theorem content_of_holds {d : Disk} {path : Path} {marker : String} {words : WordSet}
    (h : Holds d path marker words) : ∃ words, content d path marker = .ok words := by
  obtain ⟨text, htext, hne, -⟩ := h
  exact ⟨_, by rw [content_of_reads htext, value_ofText, if_neg hne]⟩

/-- The list at a path without NUL characters holds words, or it fails. -/
theorem holds_or_fails (d : Disk) {path : Path} (hnul : path.NulFree) (marker : String) :
    (∃ words, Holds d path marker words ∧ content d path marker = .ok words) ∨
      ∃ e, Fails d path marker e := by
  cases hread : d.read path.route with
  | error e =>
    cases e with
    | nul => exact absurd hread (Disk.read_ne_nul hnul)
    | problem => exact .inr ⟨_, .disk hread⟩
  | ok bytes =>
    cases htext : Utf8.decodeChunked chunkBytes bytes with
    | error fault => exact .inr ⟨_, .encoding hread htext⟩
    | ok text =>
      have hreads : Reads d path text := ⟨bytes, hread, htext⟩
      by_cases hempty : entries marker text = []
      · exact .inr ⟨_, .noEntries hreads hempty⟩
      · have hcontent := content_of_reads hreads marker
        rw [value_ofText, if_neg hempty] at hcontent
        refine .inl ⟨_, ⟨text, hreads, hempty, ?_⟩, hcontent⟩
        intro word
        rw [Std.TreeSet.mem_ofList, List.contains_iff_mem]

/-- A list that is not loaded fails, if its path has no NUL character. -/
theorem ofLists_of_content {d : Disk} {path : Path} {marker : String} {t : Trouble}
    (h : content d path marker = .error t) : t.OfLists := by
  cases hread : d.read path.route with
  | error e =>
    rw [content, readText, hread] at h
    cases e <;> cases h
    · exact .nulInPath
    · exact .failure _
  | ok bytes =>
    cases htext : Utf8.decodeChunked chunkBytes bytes with
    | error fault =>
      rw [content_of_fails (.encoding hread htext)] at h
      cases h
      exact .failure _
    | ok text =>
      rw [content_of_reads ⟨bytes, hread, htext⟩, value_ofText] at h
      split_ifs at h
      cases h
      exact .failure _

end WordSet

/-! ## All lists -/

namespace Lexicon

open WordSet

/-- Loading reads the three lists in order, up to the first that fails. -/
theorem load_eq (view : DiskView) (s : Sources) :
    load view s =
      let cmavo := WordSet.load view s.cmavoPath s.marker
      let gismu := WordSet.load (gismuView view s) s.gismuPath s.marker
      let rafsi := WordSet.load (rafsiView view s) s.rafsiPath s.marker
      match cmavo.value with
      | .error t => ⟨cmavo.records, .error t⟩
      | .ok cmavoWords =>
        match gismu.value with
        | .error t => ⟨cmavo.records ++ gismu.records, .error t⟩
        | .ok gismuWords =>
          ⟨cmavo.records ++ gismu.records ++ rafsi.records,
            rafsi.value.map fun rafsiWords =>
              { cmavo := cmavoWords, gismu := gismuWords, rafsi := rafsiWords }⟩ := rfl

/-- A trouble with the lists is one with one of them. -/
theorem ofLists_of_load {view : DiskView} {s : Sources} {t : Trouble}
    (h : (load view s).value = .error t) : t.OfLists := by
  rw [load_eq] at h
  simp only [WordSet.value_load] at h
  split at h
  · next cmavo =>
    obtain rfl := Except.error.inj h
    exact ofLists_of_content cmavo
  · split at h
    · next gismu =>
      obtain rfl := Except.error.inj h
      exact ofLists_of_content gismu
    · cases rafsi : content ((rafsiView view s).opening s.rafsiPath) s.rafsiPath s.marker with
      | ok words =>
        rw [rafsi] at h
        cases h
      | error t =>
        rw [rafsi] at h
        obtain rfl := Except.error.inj h
        exact ofLists_of_content rafsi

/-- **Loading the lists gives a lexicon, or the failure of the first list that fails.** -/
theorem load_loads (view : DiskView) {s : Sources} (hnul : s.NulFree) :
    ∃ opened outcome, Loads view s opened outcome ∧
      (load view s).value = outcome.mapError LoadError.trouble := by
  simp only [Sources.NulFree, Sources.paths, List.forall_mem_cons] at hnul
  obtain ⟨hcn, hgn, hrn, -⟩ := hnul
  rw [load_eq]
  simp only [WordSet.value_load]
  rcases holds_or_fails (view.opening s.cmavoPath) hcn s.marker with ⟨cmavo, hc, hcv⟩ | ⟨e, hc⟩
  swap
  · exact ⟨_, _, .cmavo hc, by rw [content_of_fails hc]; rfl⟩
  rcases holds_or_fails ((gismuView view s).opening s.gismuPath) hgn s.marker with
    ⟨gismu, hg, hgv⟩ | ⟨e, hg⟩
  swap
  · exact ⟨_, _, .gismu hc hg, by rw [hcv, content_of_fails hg]; rfl⟩
  rcases holds_or_fails ((rafsiView view s).opening s.rafsiPath) hrn s.marker with
    ⟨rafsi, hr, hrv⟩ | ⟨e, hr⟩
  · exact ⟨_, .ok { cmavo, gismu, rafsi }, .all hc hg hr, by rw [hcv, hgv, hrv]; rfl⟩
  · exact ⟨_, _, .rafsi hc hg hr, by rw [hcv, hgv, content_of_fails hr]; rfl⟩

section Congr

variable {view view' : DiskView} {s : Sources} {ps : List Path} (h : view.AgreesAt view' ps)
  (hc : s.cmavoPath ∈ ps)

include h hc

theorem agreesAt_gismuView : (gismuView view s).AgreesAt (gismuView view' s) ps := by
  rw [gismuView, gismuView, WordSet.load_congr h hc]
  exact h.after _

theorem agreesAt_rafsiView (hg : s.gismuPath ∈ ps) :
    (rafsiView view s).AgreesAt (rafsiView view' s) ps := by
  have hgismu := agreesAt_gismuView h hc
  rw [rafsiView, rafsiView, WordSet.load_congr hgismu hg]
  exact hgismu.after _

theorem load_congr_paths (hg : s.gismuPath ∈ ps) (hr : s.rafsiPath ∈ ps) :
    load view' s = load view s := by
  have hgismu := agreesAt_gismuView h hc
  have hrafsi := agreesAt_rafsiView h hc hg
  rw [load_eq, load_eq, WordSet.load_congr h hc, WordSet.load_congr hgismu hg,
    WordSet.load_congr hrafsi hr]

end Congr

/-- **Loading looks at no list but those that are opened.** -/
theorem load_congr {view view' : DiskView} {s : Sources} {opened : List Path}
    {outcome : Except LoadError Lexicon} (h : Loads view s opened outcome)
    (hagree : view.AgreesAt view' opened) : load view' s = load view s := by
  cases h with
  | cmavo hc =>
    rw [load_eq, load_eq, WordSet.load_congr hagree (by simp)]
    simp only [WordSet.value_load, content_of_fails hc]
  | gismu hc hg =>
    obtain ⟨words, hwords⟩ := content_of_holds hc
    have hgismu := agreesAt_gismuView hagree (s := s) (by simp)
    rw [load_eq, load_eq, WordSet.load_congr hagree (by simp), WordSet.load_congr hgismu (by simp)]
    simp only [WordSet.value_load, hwords, content_of_fails hg]
  | rafsi | all =>
    exact load_congr_paths hagree (by simp [Sources.paths]) (by simp [Sources.paths])
      (by simp [Sources.paths])

end Lexicon

end Lojban
