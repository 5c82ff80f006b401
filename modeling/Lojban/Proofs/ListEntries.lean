import Mathlib
import Lojban.Proofs.ListReading

/-!
# The entries of a word list

A word list may be laid out freely: blanks in front of an entry, the marker or not, anything behind
the first field, lines without an entry, any of the three line ends. `Text.LeadsWith`, `HasNoEntry`
and `HasEntry` say which lines there are, without the reader, and `ListsWords` puts a list together
from them. Whatever its layout, a list of words is loaded as these words.

Main results:
* `headword?_eq_some_iff`, `headword?_eq_none_iff`: the lines that have a given entry, and none.
* `WordSet.load_listed_words`: a list of words is loaded as these words, and nothing is loaded but
  words.
-/

namespace Lojban

open Text

/-! ## Specification -/

namespace Text

/-- Holds no blank. -/
def Solid (cs : List Char) : Prop :=
  ∀ c ∈ cs, isBlank c = false

/-- `field` stands in `line` behind nothing but blanks, and the line ends there or goes on with a
blank. -/
def LeadsWith (field line : List Char) : Prop :=
  ∃ before behind, line = before ++ (field ++ behind) ∧ (∀ c ∈ before, isBlank c = true) ∧
    ∀ c ∈ behind.head?, isBlank c = true

end Text

/-- What may be a field of a line: a text that is not empty and holds no blank. -/
structure IsField (word : String) : Prop where
  ne_empty : word ≠ ""
  solid : Solid word.toList

/-- A line without an entry holds only blanks, or its first field is the marker alone. -/
inductive HasNoEntry (marker : String) (line : List Char) : Prop
  | blank (h : ∀ c ∈ line, isBlank c = true)
  | marker (h : LeadsWith marker.toList line)

/-- The first field of a line with the entry `word` is the marker with the word behind it. It may
also be the word alone, if that does not start with the marker. -/
inductive HasEntry (marker word : String) (line : List Char) : Prop
  | marked (h : LeadsWith (marker.toList ++ word.toList) line)
  | plain (hplain : ¬ marker.toList <+: word.toList) (h : LeadsWith word.toList line)

/-- The lines of `text` have entries from `words` or none, and every one of the words is among
them. -/
structure ListsWords (marker : String) (words : Finset String) (ls : List (List Char))
    (text : List Char) : Prop where
  isLines : IsLines ls text
  lines : ∀ l ∈ ls, HasNoEntry marker l ∨ ∃ w ∈ words, HasEntry marker w l
  words : ∀ w ∈ words, ∃ l ∈ ls, HasEntry marker w l

/-! ## First fields -/

theorem solid_firstField (line : List Char) : Solid (firstField line) := by
  intro c hc
  simpa using List.mem_takeWhile_imp hc

theorem leadsWith_firstField (line : List Char) : LeadsWith (firstField line) line := by
  refine ⟨line.takeWhile isBlank, (line.dropWhile isBlank).dropWhile fun c => !isBlank c,
    ?_, ?_, ?_⟩
  · rw [firstField, List.takeWhile_append_dropWhile, List.takeWhile_append_dropWhile]
  · exact fun c hc => List.mem_takeWhile_imp hc
  · intro c hc
    have := List.head?_dropWhile_not (fun c => !isBlank c) (line.dropWhile isBlank)
    rw [hc] at this
    simpa using this

/-- A line has no first field exactly if it is blank. -/
theorem firstField_eq_nil_iff {line : List Char} :
    firstField line = [] ↔ ∀ c ∈ line, isBlank c = true := by
  have hhead := List.head?_dropWhile_not isBlank line
  rw [← List.dropWhile_eq_nil_iff, firstField]
  cases hrest : line.dropWhile isBlank with
  | nil => simp
  | cons c rest =>
    rw [hrest] at hhead
    have hc : isBlank c = false := by simpa using hhead
    simp [hc]

/-- **The first field is what a line leads with.** -/
theorem leadsWith_iff {field line : List Char} (hne : field ≠ []) (hsolid : Solid field) :
    LeadsWith field line ↔ firstField line = field := by
  constructor
  · rintro ⟨before, behind, rfl, hbefore, hbehind⟩
    obtain ⟨c, rest, rfl⟩ := List.exists_cons_of_ne_nil hne
    have hc : isBlank c = false := hsolid c List.mem_cons_self
    have hdrop : (before ++ (c :: rest ++ behind)).dropWhile isBlank = c :: rest ++ behind := by
      rw [List.dropWhile_append_of_pos hbefore, List.cons_append, List.dropWhile_cons_of_neg]
      simp [hc]
    have hstop : behind.takeWhile (fun c => !isBlank c) = [] := by
      cases behind with
      | nil => rfl
      | cons b behind =>
        have hb : isBlank b = true := hbehind b rfl
        simp [hb]
    rw [firstField, hdrop, List.takeWhile_append_of_pos, hstop, List.append_nil]
    intro c hc
    rw [hsolid c hc]
    rfl
  · rintro rfl
    exact leadsWith_firstField line

/-! ## The marker -/

/-- A field without the marker in front. -/
def unmarked (marker field : List Char) : List Char :=
  if marker.isPrefixOf field then field.drop marker.length else field

/-- The marker is taken off once. -/
theorem unmarked_eq_iff {marker field word : List Char} :
    unmarked marker field = word ↔
      field = marker ++ word ∨ ¬ marker <+: word ∧ field = word := by
  unfold unmarked
  split_ifs with h
  · obtain ⟨rest, rfl⟩ := List.isPrefixOf_iff_prefix.mp h
    rw [List.drop_left, List.append_cancel_left_eq]
    constructor
    · exact .inl
    · rintro (rfl | ⟨hplain, rfl⟩)
      · rfl
      · exact absurd (List.prefix_append marker rest) hplain
  · rw [List.isPrefixOf_iff_prefix] at h
    constructor
    · rintro rfl
      exact .inr ⟨h, rfl⟩
    · rintro (rfl | ⟨-, rfl⟩)
      · exact absurd (List.prefix_append marker word) h
      · rfl

theorem headword?_eq (marker : String) (line : List Char) :
    headword? marker line =
      if unmarked marker.toList (firstField line) = [] then none
      else some (String.ofList (unmarked marker.toList (firstField line))) := by
  show (let word := unmarked marker.toList (firstField line)
    if word.isEmpty then none else some (String.ofList word)) = _
  cases unmarked marker.toList (firstField line) <;> rfl

/-! ## Entries of lines -/

section Entries

variable {marker word : String} {line : List Char}

/-- The entry of a line is what is left of its first field without the marker. -/
theorem headword?_eq_some_iff_firstField :
    headword? marker line = some word ↔
      word ≠ "" ∧ (firstField line = marker.toList ++ word.toList ∨
        ¬ marker.toList <+: word.toList ∧ firstField line = word.toList) := by
  have hword : word ≠ "" ↔ word.toList ≠ [] := by rw [ne_eq, ne_eq, String.toList_eq_nil_iff]
  rw [headword?_eq, hword, ← unmarked_eq_iff]
  generalize unmarked marker.toList (firstField line) = entry
  split_ifs with h
  · refine iff_of_false (by simp) ?_
    rintro ⟨hne, rfl⟩
    exact hne h
  · rw [Option.some.injEq]
    constructor
    · rintro rfl
      simpa using h
    · rintro ⟨-, rfl⟩
      exact String.ofList_toList

/-- The entry of a line could stand there as a field. -/
theorem isField_of_headword? (h : headword? marker line = some word) : IsField word := by
  obtain ⟨hne, hfield⟩ := headword?_eq_some_iff_firstField.mp h
  refine ⟨hne, fun c hc => solid_firstField line c ?_⟩
  rcases hfield with hfield | ⟨-, hfield⟩
  · rw [hfield]
    exact List.mem_append_right _ hc
  · rw [hfield]
    exact hc

variable (hsolid : Solid marker.toList)

include hsolid

/-- **The lines with a given entry.** -/
theorem headword?_eq_some_iff (hword : IsField word) :
    headword? marker line = some word ↔ HasEntry marker word line := by
  have hne : word.toList ≠ [] := by
    rw [ne_eq, String.toList_eq_nil_iff]
    exact hword.ne_empty
  have hboth : Solid (marker.toList ++ word.toList) :=
    fun c hc => (List.mem_append.mp hc).elim (hsolid c) (hword.solid c)
  have hmarked : marker.toList ++ word.toList ≠ [] := List.append_ne_nil_of_right_ne_nil _ hne
  rw [headword?_eq_some_iff_firstField, ← leadsWith_iff hmarked hboth,
    ← leadsWith_iff hne hword.solid]
  constructor
  · rintro ⟨-, h | ⟨h, hfield⟩⟩
    · exact .marked h
    · exact .plain h hfield
  · rintro (h | ⟨h, hfield⟩)
    · exact ⟨hword.ne_empty, .inl h⟩
    · exact ⟨hword.ne_empty, .inr ⟨h, hfield⟩⟩

/-- **The lines without an entry.** -/
theorem headword?_eq_none_iff (hmarker : marker ≠ "") :
    headword? marker line = none ↔ HasNoEntry marker line := by
  have hne : marker.toList ≠ [] := by rwa [ne_eq, String.toList_eq_nil_iff]
  have hunmarked : unmarked marker.toList (firstField line) = [] ↔
      LeadsWith marker.toList line ∨ ∀ c ∈ line, isBlank c = true := by
    rw [unmarked_eq_iff, List.append_nil, List.prefix_nil, leadsWith_iff hne hsolid,
      firstField_eq_nil_iff]
    simp [hne]
  rw [headword?_eq]
  split_ifs with h
  · refine iff_of_true rfl ?_
    rcases hunmarked.mp h with h | h
    · exact .marker h
    · exact .blank h
  · refine iff_of_false (by simp) ?_
    rintro (hblank | hfield)
    · exact h (hunmarked.mpr (.inr hblank))
    · exact h (hunmarked.mpr (.inl hfield))

end Entries

/-! ## Lists of words -/

namespace WordSet

/-- What is loaded are the entries of a text, of which there is one at least. -/
theorem exists_of_load_eq_ok {view : DiskView} {path : Path} {marker : String} {loaded : WordSet}
    (h : (load view path marker).value = .ok loaded) :
    ∃ text, entries marker text ≠ [] ∧ loaded = Std.TreeSet.ofList (entries marker text) := by
  rw [value_load, content] at h
  cases htext : readText (view.opening path) path.route with
  | error t => rw [htext] at h; cases h
  | ok text =>
    rw [htext] at h
    dsimp only at h
    rw [value_ofText] at h
    split_ifs at h with hempty
    cases h
    exact ⟨text, hempty, rfl⟩

/-- **A list of words is loaded as these words**, in whatever order, how often and in which layout
they stand in it. What is loaded is never empty, and holds nothing but words. -/
theorem load_listed_words (view : DiskView) (path : Path) (marker : String) :
    (∀ (words : Finset String) (ls : List (List Char)) (text : List Char), IsField marker →
      words.Nonempty → (∀ w ∈ words, IsField w) →
      (view.opening path).read path.route = .ok (Utf8.encode text) →
      ListsWords marker words ls text →
      ∃ loaded, (load view path marker).value = .ok loaded ∧ ∀ w, w ∈ loaded ↔ w ∈ words) ∧
    ∀ loaded, (load view path marker).value = .ok loaded →
      (∃ w, w ∈ loaded) ∧ ∀ w ∈ loaded, IsField w := by
  constructor
  · intro words ls text hmarker hnonempty hwords hread hlist
    -- a word is the entry of a line exactly if it is one of the words
    have hentries : ∀ w, w ∈ ls.filterMap (headword? marker) ↔ w ∈ words := by
      intro w
      rw [List.mem_filterMap]
      constructor
      · rintro ⟨l, hl, hw⟩
        rcases hlist.lines l hl with hnone | ⟨w', hw', hentry⟩
        · rw [(headword?_eq_none_iff hmarker.solid hmarker.ne_empty).mpr hnone] at hw
          cases hw
        · rw [(headword?_eq_some_iff hmarker.solid (hwords w' hw')).mpr hentry] at hw
          cases hw
          exact hw'
      · intro hw
        obtain ⟨l, hl, hentry⟩ := hlist.words w hw
        exact ⟨l, hl, (headword?_eq_some_iff hmarker.solid (hwords w hw)).mpr hentry⟩
    have hne : ls.filterMap (headword? marker) ≠ [] := by
      obtain ⟨w, hw⟩ := hnonempty
      exact List.ne_nil_of_mem ((hentries w).mpr hw)
    have hload := value_load_of_isLines hread marker (Utf8.decodeChunked_eq_ok_iff.mpr rfl)
      hlist.isLines
    rw [if_neg hne] at hload
    refine ⟨_, hload, ?_⟩
    intro w
    rw [Std.TreeSet.mem_ofList, List.contains_iff_mem, hentries]
  · intro loaded hload
    obtain ⟨text, hne, rfl⟩ := exists_of_load_eq_ok hload
    have hmem : ∀ w, w ∈ (Std.TreeSet.ofList (entries marker text) : WordSet) ↔
        ∃ line ∈ lines text, headword? marker line = some w := by
      intro w
      rw [Std.TreeSet.mem_ofList, List.contains_iff_mem, entries, List.mem_filterMap]
    constructor
    · obtain ⟨w, hw⟩ := List.exists_mem_of_ne_nil _ hne
      exact ⟨w, (hmem w).mpr (List.mem_filterMap.mp hw)⟩
    · intro w hw
      obtain ⟨line, -, hline⟩ := (hmem w).mp hw
      exact isField_of_headword? hline

/-- A marker of two characters in front of a word that starts with it, blanks that are not ASCII,
the marker alone, an entry twice, and all three line ends. -/
theorem load_listed_words_marked :
    let text := "\u2003....i x\r..\n\x1ca\u2028note\r\n \n..a".toList
    let ls := ["\u2003....i x", "..", "\x1ca\u2028note", " ", "..a"].map String.toList
    let words : Finset String := {"..i", "a"}
    let path : Path := ⟨.none, ["cmavo.txt"]⟩
    let view := Disk.still (Disk.put {} ["cmavo.txt"] (.file (Utf8.encode text)))
    IsField ".." ∧ (∀ w ∈ words, IsField w) ∧
      (view.opening path).read path.route = .ok (Utf8.encode text) ∧
      ListsWords ".." words ls text ∧
      ∃ loaded, (load view path "..").value = .ok loaded ∧ ∀ w, w ∈ loaded ↔ w ∈ words := by
  intro text ls words path view
  have hread : (view.opening path).read path.route = .ok (Utf8.encode text) := by
    simp only [view]
    generalize Utf8.encode text = bytes
    cbv
  have hmarker : IsField ".." := ⟨by decide, by simp [Solid, isBlank]⟩
  have hwords : ∀ w ∈ words, IsField w := by
    simp only [words, Finset.forall_mem_insert, Finset.mem_singleton, forall_eq]
    exact ⟨⟨by decide, by simp [Solid, isBlank]⟩, by decide, by simp [Solid, isBlank]⟩
  have hlines : IsLines ls text := by
    have hsplit : text = "\u2003....i x".toList ++ (['\r'] ++ ("..".toList ++ (['\n'] ++
        ("\x1ca\u2028note".toList ++ (['\r', '\n'] ++ ([' '] ++ (['\n'] ++ "..a".toList))))))) := by
      decide
    rw [hsplit]
    refine .cons ?_ (.carriageReturn ?_) (.cons ?_ .lineFeed (.cons ?_ .both (.cons ?_ .lineFeed
      (.last ?_ ?_)))) <;> simp [Unbroken, isLineEnd]
  have hmarked : HasEntry ".." "..i" "\u2003....i x".toList :=
    .marked ⟨['\u2003'], [' ', 'x'], by decide, by simp [isBlank], by simp [isBlank]⟩
  have halone : HasNoEntry ".." "..".toList :=
    .marker ⟨[], [], by decide, by simp, by simp⟩
  have hplain : HasEntry ".." "a" "\x1ca\u2028note".toList :=
    .plain (by decide) ⟨['\x1c'], "\u2028note".toList, by decide, by simp [isBlank],
      by simp [isBlank]⟩
  have hblank : HasNoEntry ".." " ".toList := .blank (by simp [isBlank])
  have htwice : HasEntry ".." "a" "..a".toList := .marked ⟨[], [], by decide, by simp, by simp⟩
  have hlist : ListsWords ".." words ls text := by
    refine ⟨hlines, ?_, ?_⟩
    · simp only [ls, List.map_cons, List.map_nil, List.forall_mem_cons]
      exact ⟨.inr ⟨_, by simp [words], hmarked⟩, .inl halone, .inr ⟨_, by simp [words], hplain⟩,
        .inl hblank, .inr ⟨_, by simp [words], htwice⟩, by simp⟩
    · simp only [words, Finset.forall_mem_insert, Finset.mem_singleton, forall_eq]
      exact ⟨⟨_, List.mem_map_of_mem (by simp), hmarked⟩, _, List.mem_map_of_mem (by simp), hplain⟩
  have hnonempty : words.Nonempty := Finset.insert_nonempty _ _
  exact ⟨hmarker, hwords, hread, hlist,
    (load_listed_words view path "..").1 words ls text hmarker hnonempty hwords hread hlist⟩

end WordSet

end Lojban
