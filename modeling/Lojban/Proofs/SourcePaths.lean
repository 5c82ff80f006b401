import Mathlib.Tactic
import Lojban.Lexicon.Sources

/-!
# Paths of word lists

A path is written with the characters it was read with and those that stand for roots and between
names. So the paths of sources have no NUL character if what they were made from has none; the
values of environment variables never have one.

Main result: `Environment.nulFree_sources`.
-/

namespace Lojban

/-! ## NUL characters -/

/-- The text has no NUL character. -/
def NulFree (text : String) : Prop :=
  '\x00' ∉ text.toList

namespace Path

/-- The path is written without a NUL character. -/
protected def NulFree (p : Path) : Prop :=
  Lojban.NulFree p.text

/-- Parts between slashes are made of the characters of the text. -/
theorem mem_of_mem_parts {cs part : List Char} {c : Char} (hpart : part ∈ parts cs)
    (hc : c ∈ part) : c ∈ cs := by
  induction cs generalizing part with
  | nil =>
    rw [parts, List.mem_singleton] at hpart
    exact hpart ▸ hc
  | cons d cs ih =>
    rw [parts] at hpart
    split_ifs at hpart with hslash
    · rcases List.mem_cons.mp hpart with rfl | hpart
      · cases hc
      · exact List.mem_cons_of_mem _ (ih hpart hc)
    · -- the first character goes to the first part, the other parts are those of the rest
      split at hpart
      · rw [List.mem_singleton] at hpart
        subst hpart
        exact List.mem_cons.mpr (.inl (List.mem_singleton.mp hc))
      · next p ps hparts =>
        rcases List.mem_cons.mp hpart with rfl | hpart
        · rcases List.mem_cons.mp hc with rfl | hc
          · exact List.mem_cons_self
          · exact List.mem_cons_of_mem _ (ih (hparts ▸ List.mem_cons_self) hc)
        · exact List.mem_cons_of_mem _ (ih (hparts ▸ List.mem_cons_of_mem _ hpart) hc)

theorem nulFree_names_ofString {s : String} (h : NulFree s) :
    ∀ name ∈ (ofString s).names, Lojban.NulFree name := by
  intro name hname
  obtain ⟨part, hpart, rfl⟩ := List.mem_map.mp (List.mem_filter.mp hname).1
  rw [Lojban.NulFree, String.toList_ofList]
  exact fun hnul => h (mem_of_mem_parts hpart hnul)

theorem nulFree_intercalate {names : List String} (h : ∀ name ∈ names, Lojban.NulFree name) :
    Lojban.NulFree ("/".intercalate names) := by
  induction names with
  | nil => simp [Lojban.NulFree]
  | cons name names ih =>
    rw [List.forall_mem_cons] at h
    cases names with
    | nil => simpa using h.1
    | cons name' names =>
      rw [String.intercalate_cons_cons, Lojban.NulFree, String.toList_append, String.toList_append,
        List.mem_append, List.mem_append]
      rintro ((hnul | hnul) | hnul)
      · exact h.1 hnul
      · simp at hnul
      · exact ih h.2 hnul

theorem nulFree_of_names {p : Path} (h : ∀ name ∈ p.names, Lojban.NulFree name) : p.NulFree := by
  rw [Path.NulFree, text]
  split_ifs
  · cases p.root <;> simp [Root.alone, Lojban.NulFree]
  · rw [Lojban.NulFree, String.toList_append, List.mem_append]
    rintro (hnul | hnul)
    · revert hnul
      cases p.root <;> simp [Root.lead]
    · exact nulFree_intercalate h hnul

theorem nulFree_names_join {p : Path} {s : String} (hp : ∀ name ∈ p.names, Lojban.NulFree name)
    (hs : Lojban.NulFree s) : ∀ name ∈ (p.join s).names, Lojban.NulFree name := by
  have hnames := nulFree_names_ofString hs
  simp only [join]
  split_ifs
  · intro name hname
    exact (List.mem_append.mp hname).elim (hp name) (hnames name)
  · exact hnames

end Path

/-! ## Sources -/

namespace Sources

/-- The lists of a lexicon, in the order in which they are read. -/
def paths (s : Sources) : List Path :=
  [s.cmavoPath, s.gismuPath, s.rafsiPath]

/-- None of the three paths has a NUL character. -/
protected def NulFree (s : Sources) : Prop :=
  ∀ p ∈ s.paths, p.NulFree

theorem nulFree_of_texts {s : Sources} (hdirectory : ∀ text ∈ s.directory, Lojban.NulFree text)
    (hfiles : ∀ file ∈ [s.cmavoFile, s.gismuFile, s.rafsiFile], Lojban.NulFree file) :
    s.NulFree := by
  have hnames : ∀ name ∈ s.directoryPath.names, Lojban.NulFree name := by
    rw [directoryPath]
    cases hd : s.directory with
    | none => simp
    | some text => exact Path.nulFree_names_ofString (hdirectory text hd)
  have hjoin : ∀ file ∈ [s.cmavoFile, s.gismuFile, s.rafsiFile],
      (s.directoryPath.join file).NulFree :=
    fun file hfile => Path.nulFree_of_names (Path.nulFree_names_join hnames (hfiles file hfile))
  simpa [Sources.NulFree, paths, cmavoPath, gismuPath, rafsiPath] using hjoin

/-- What the environment asks for, whatever is recorded of it. -/
theorem value_ofVariables (env : Variables) :
    (ofVariables env).value =
      { directory :=
          if (env.lookup "VALSI_WORDLIST_DIR").getD "" = "" then none
          else some (Path.ofString ((env.lookup "VALSI_WORDLIST_DIR").getD "")).text
        cmavoFile := (env.lookup "VALSI_CMAVO_FILE").getD "cmavo.txt"
        gismuFile := (env.lookup "VALSI_GISMU_FILE").getD "gismu.txt"
        rafsiFile := (env.lookup "VALSI_RAFSI_FILE").getD "rafsi.txt" } := by
  simp only [ofVariables]
  split_ifs <;> rfl

end Sources

/-! ## Environments -/

/-- The environment of a process: no value of a variable has a NUL character. -/
structure Environment where
  values : Variables
  nulFree : ∀ v ∈ values, NulFree v.2

namespace Environment

theorem nulFree_lookup (env : Environment) (name : String) {default : String}
    (hdefault : NulFree default) : NulFree ((env.values.lookup name).getD default) := by
  cases hvalue : env.values.lookup name with
  | none => exact hdefault
  | some value =>
    obtain ⟨before, behind, hvalues, -⟩ := List.lookup_eq_some_iff.mp hvalue
    exact env.nulFree (name, value) (by simp [hvalues])

/-- No path of the sources that an environment asks for has a NUL character. -/
theorem nulFree_sources (env : Environment) : (Sources.ofVariables env.values).value.NulFree := by
  have hdirectory := env.nulFree_lookup "VALSI_WORDLIST_DIR" (by simp [NulFree] : NulFree "")
  have hpath := Path.nulFree_of_names (Path.nulFree_names_ofString hdirectory)
  have hfiles : ∀ file ∈ [(env.values.lookup "VALSI_CMAVO_FILE").getD "cmavo.txt",
      (env.values.lookup "VALSI_GISMU_FILE").getD "gismu.txt",
      (env.values.lookup "VALSI_RAFSI_FILE").getD "rafsi.txt"], NulFree file := by
    simp only [List.forall_mem_cons]
    exact ⟨env.nulFree_lookup _ (by simp [NulFree]), env.nulFree_lookup _ (by simp [NulFree]),
      env.nulFree_lookup _ (by simp [NulFree]), by simp⟩
  rw [Sources.value_ofVariables]
  refine Sources.nulFree_of_texts ?_ hfiles
  intro text htext
  dsimp only at htext
  split_ifs at htext
  · cases htext
  · cases htext
    exact hpath

end Environment

end Lojban
