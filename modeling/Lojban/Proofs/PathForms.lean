import Mathlib.Tactic
import Lojban.Proofs.SourcePaths

/-!
# Normal forms of paths

Reading a path from a text drops the names that name nothing, so what is read is in normal form
(`Path.Normal`), and a path in normal form is what is read from its own text (`ofString_text`). So a
path may be written and read again, once or many times, and joining a name to it comes to the same
before and after.

Main result: `Sources.paths_ofVariables`, the paths of the lists are the same whether the directory
is normalized when the environment is looked at or when a name is joined to it.
-/

namespace Lojban

/-! ## Specification -/

/-- There is nothing to leave out: no name is empty, is `.` or holds a slash. -/
structure Path.Normal (p : Path) : Prop where
  root_ne : p.root ≠ .bundled
  named : ∀ name ∈ p.names, isName name = true
  no_slash : ∀ name ∈ p.names, '/' ∉ name.toList

/-- The text of a path that does not depend on where it is seen from. -/
def IsAbsolute (file : String) : Prop :=
  ∃ cs, file.toList = '/' :: cs

namespace Path

/-! ## Parts between slashes -/

theorem parts_eq_splitOn (cs : List Char) : parts cs = cs.splitOn '/' := by
  induction cs with
  | nil => rfl
  | cons c cs ih =>
    rw [parts, List.splitOn_cons_eq_if_modifyHead, ih]
    by_cases hc : c = '/'
    · rw [if_pos hc, if_pos (by simpa using hc)]
    · rw [if_neg hc, if_neg (by simpa using hc)]
      cases hparts : cs.splitOn '/' with
      | nil => exact absurd hparts (List.splitOn_ne_nil '/' cs)
      | cons p ps => rfl

theorem slash_not_mem_of_mem_parts {cs part : List Char} (hpart : part ∈ parts cs) :
    '/' ∉ part := by
  induction cs generalizing part with
  | nil =>
    rw [parts, List.mem_singleton] at hpart
    simp [hpart]
  | cons c cs ih =>
    rw [parts] at hpart
    split_ifs at hpart with hc
    · rcases List.mem_cons.mp hpart with rfl | hpart
      · exact List.not_mem_nil
      · exact ih hpart
    · split at hpart
      · rw [List.mem_singleton] at hpart
        simp [hpart, Ne.symm hc]
      · next p ps hparts =>
        rcases List.mem_cons.mp hpart with rfl | hpart
        · have hp : '/' ∉ p := ih (hparts ▸ List.mem_cons_self)
          simp [hp, Ne.symm hc]
        · exact ih (hparts ▸ List.mem_cons_of_mem _ hpart)

/-! ## What is read -/

theorem normal_ofString (s : String) : (ofString s).Normal where
  root_ne := rootOf_ne_bundled s.toList
  named name hname := (List.mem_filter.mp hname).2
  no_slash name hname := by
    obtain ⟨part, hpart, rfl⟩ := List.mem_map.mp (List.mem_filter.mp hname).1
    rw [String.toList_ofList]
    exact slash_not_mem_of_mem_parts hpart

theorem Normal.join {p : Path} (h : p.Normal) (s : String) : (p.join s).Normal := by
  have hs := normal_ofString s
  rw [Path.join]
  split_ifs
  · exact ⟨h.root_ne, List.forall_mem_append.mpr ⟨h.named, hs.named⟩,
      List.forall_mem_append.mpr ⟨h.no_slash, hs.no_slash⟩⟩
  · exact hs

/-! ## What is written -/

/-- The names of a path as they are written, with a slash between each two. -/
def body (names : List String) : List Char :=
  ['/'].intercalate (names.map String.toList)

theorem toList_text {p : Path} (hne : p.names ≠ []) :
    p.text.toList = p.root.lead.toList ++ body p.names := by
  rw [text, if_neg hne, String.toList_append, String.toList_intercalate]
  rfl

theorem exists_body_cons (name : String) (names : List String) :
    ∃ cs, body (name :: names) = name.toList ++ cs := by
  cases names with
  | nil => exact ⟨[], by simp [body]⟩
  | cons other names => exact ⟨'/' :: body (other :: names), by simp [body]⟩

section Names

variable {names : List String} (hne : names ≠ []) (hslash : ∀ name ∈ names, '/' ∉ name.toList)

include hne hslash

theorem parts_body : parts (body names) = names.map String.toList := by
  rw [parts_eq_splitOn, body, List.splitOn_intercalate]
  · simpa using hslash
  · simpa using hne

/-- The first name is not empty, so no slash comes first. -/
theorem takeWhile_body (hnamed : ∀ name ∈ names, isName name = true) :
    (body names).takeWhile (· = '/') = [] := by
  cases names with
  | nil => exact absurd rfl hne
  | cons name names =>
    obtain ⟨hnamed, -⟩ := List.forall_mem_cons.mp hnamed
    obtain ⟨hslash, -⟩ := List.forall_mem_cons.mp hslash
    obtain ⟨cs, hbody⟩ := exists_body_cons name names
    rw [hbody]
    cases hname : name.toList with
    | nil => simp [isName, String.toList_eq_nil_iff.mp hname] at hnamed
    | cons c ds =>
      rw [hname, List.mem_cons, not_or] at hslash
      simp [Ne.symm hslash.1]

end Names

/-- A slash in front adds nothing but an empty part. -/
theorem filter_parts_cons_slash (cs : List Char) :
    ((parts ('/' :: cs)).map String.ofList).filter isName =
      ((parts cs).map String.ofList).filter isName := by
  rw [parts, if_pos rfl, List.map_cons, List.filter_cons_of_neg (by decide)]

section Lead

variable {root : Root} (hroot : root ≠ .bundled) (cs : List Char)

include hroot

theorem filter_parts_lead_append :
    ((parts (root.lead.toList ++ cs)).map String.ofList).filter isName =
      ((parts cs).map String.ofList).filter isName := by
  cases root with
  | bundled => exact absurd rfl hroot
  | none => rfl
  | single => exact filter_parts_cons_slash cs
  | double => exact (filter_parts_cons_slash ('/' :: cs)).trans (filter_parts_cons_slash cs)

theorem rootOf_lead_append (h : cs.takeWhile (· = '/') = []) :
    rootOf (root.lead.toList ++ cs) = root := by
  cases root with
  | bundled => exact absurd rfl hroot
  | none | single | double => simp [rootOf, Root.lead, h]

end Lead

/-- **A path in normal form is what is read from its text.** -/
theorem Normal.ofString_text {p : Path} (h : p.Normal) : ofString p.text = p := by
  obtain ⟨root, names⟩ := p
  obtain ⟨hroot, hnamed, hslash⟩ := h
  dsimp only at hroot hnamed hslash
  by_cases hne : names = []
  · subst hne
    cases root with
    | bundled => exact absurd rfl hroot
    | none | single | double => decide +kernel
  · have hnames : ((parts (body names)).map String.ofList).filter isName = names := by
      rw [parts_body hne hslash, List.map_map]
      simpa using hnamed
    rw [ofString, toList_text hne, rootOf_lead_append hroot _ (takeWhile_body hne hslash hnamed),
      filter_parts_lead_append hroot, hnames]

/-! ## Joining -/

theorem root_ofString_ne_none {file : String} (h : IsAbsolute file) :
    (ofString file).root ≠ .none := by
  obtain ⟨cs, hcs⟩ := h
  rw [ofString, hcs, rootOf, List.takeWhile_cons_of_pos (by simp), List.length_cons]
  split <;> simp_all

/-- An absolute file is the same wherever it is seen from. -/
theorem join_of_isAbsolute {file : String} (h : IsAbsolute file) (p : Path) :
    p.join file = ofString file := by
  rw [join, if_neg (root_ofString_ne_none h)]

end Path

/-! ## Sources -/

namespace Sources

/-- The paths are the same whether a directory is normalized early or late. -/
theorem paths_normalized (s : Sources) (d : String) :
    let early : Sources := { s with directory := some (Path.ofString d).text }
    let late : Sources := { s with directory := some d }
    early.cmavoPath = late.cmavoPath ∧ early.gismuPath = late.gismuPath ∧
      early.rafsiPath = late.rafsiPath := by
  intro early late
  have hdirectory : early.directoryPath = late.directoryPath :=
    (Path.normal_ofString d).ofString_text
  refine ⟨?_, ?_, ?_⟩
  · exact congrArg (·.join s.cmavoFile) hdirectory
  · exact congrArg (·.join s.gismuFile) hdirectory
  · exact congrArg (·.join s.rafsiFile) hdirectory

theorem normal_paths {s : Sources} {d : String} (hd : s.directory = some d) :
    ∀ p ∈ s.paths, p.Normal := by
  have hnormal : s.directoryPath.Normal := by
    rw [directoryPath, hd]
    exact Path.normal_ofString d
  simp only [paths, List.forall_mem_cons]
  exact ⟨hnormal.join s.cmavoFile, hnormal.join s.gismuFile, hnormal.join s.rafsiFile, by simp⟩

/-- **The environment gives the paths that the texts in it stand for.** The directory is normalized
when the environment is looked at, but the paths are those of the directory as it was given. There
is nothing to leave out of them, and a file that is absolute is the same whatever the directory. -/
theorem paths_ofVariables {env : Variables} {d c g r : String} (hne : d ≠ "")
    (hd : env.lookup "VALSI_WORDLIST_DIR" = some d) (hc : env.lookup "VALSI_CMAVO_FILE" = some c)
    (hg : env.lookup "VALSI_GISMU_FILE" = some g) (hr : env.lookup "VALSI_RAFSI_FILE" = some r) :
    let found := (ofVariables env).value
    let given : Sources := { directory := some d, cmavoFile := c, gismuFile := g, rafsiFile := r }
    (found.cmavoPath = given.cmavoPath ∧ found.gismuPath = given.gismuPath ∧
      found.rafsiPath = given.rafsiPath) ∧
    (∀ p ∈ given.paths, p.Normal ∧ Path.ofString p.text = p) ∧
    ∀ d', let moved : Sources := { given with directory := d' }
      (IsAbsolute c → moved.cmavoPath = given.cmavoPath) ∧
      (IsAbsolute g → moved.gismuPath = given.gismuPath) ∧
      (IsAbsolute r → moved.rafsiPath = given.rafsiPath) := by
  intro found given
  have hfound : found = { given with directory := some (Path.ofString d).text } := by
    show (ofVariables env).value = _
    rw [value_ofVariables, hd, hc, hg, hr]
    simp only [Option.getD_some, if_neg hne, given]
  refine ⟨?_, ?_, ?_⟩
  · rw [hfound]
    exact given.paths_normalized d
  · intro p hp
    have hnormal : p.Normal := normal_paths rfl p hp
    exact ⟨hnormal, hnormal.ofString_text⟩
  · intro d' moved
    have hsame : ∀ {file}, IsAbsolute file →
        moved.directoryPath.join file = given.directoryPath.join file :=
      fun h => (Path.join_of_isAbsolute h _).trans (Path.join_of_isAbsolute h _).symm
    exact ⟨hsame, hsame, hsame⟩

/-- Two slashes in front, empty parts, `.` and `..`, a file that is absolute and one without a
name. -/
theorem paths_ofVariables_odd :
    let env : Variables := [("VALSI_WORDLIST_DIR", "//lists/.//../x/"),
      ("VALSI_CMAVO_FILE", "./a//b/"), ("VALSI_GISMU_FILE", "///g.txt"), ("VALSI_RAFSI_FILE", "")]
    let found := (ofVariables env).value
    "//lists/.//../x/" ≠ "" ∧
      env.lookup "VALSI_WORDLIST_DIR" = some "//lists/.//../x/" ∧
      env.lookup "VALSI_CMAVO_FILE" = some "./a//b/" ∧
      env.lookup "VALSI_GISMU_FILE" = some "///g.txt" ∧ env.lookup "VALSI_RAFSI_FILE" = some "" ∧
      found.paths.map Path.text = ["//lists/../x/a/b", "/g.txt", "//lists/../x"] ∧
      (∀ p ∈ found.paths, Path.ofString p.text = p) ∧
      (Path.ofString "elsewhere").join "///g.txt" = found.gismuPath := by
  intro env found
  have hne : "//lists/.//../x/" ≠ "" := by decide
  have hd : env.lookup "VALSI_WORDLIST_DIR" = some "//lists/.//../x/" := by decide
  have hc : env.lookup "VALSI_CMAVO_FILE" = some "./a//b/" := by decide
  have hg : env.lookup "VALSI_GISMU_FILE" = some "///g.txt" := by decide
  have hr : env.lookup "VALSI_RAFSI_FILE" = some "" := by decide
  obtain ⟨⟨hcmavo, hgismu, hrafsi⟩, hnormal, hmoved⟩ := paths_ofVariables hne hd hc hg hr
  refine ⟨hne, hd, hc, hg, hr, ?_, ?_, ?_⟩
  · simp only [paths]
    rw [hcmavo, hgismu, hrafsi]
    decide +kernel
  · simp only [paths]
    rw [hcmavo, hgismu, hrafsi]
    exact fun p hp => (hnormal p hp).2
  · rw [hgismu]
    exact (hmoved (some "elsewhere")).2.1 ⟨_, rfl⟩

end Sources

end Lojban
