import Mathlib.Data.List.DropRight
import Mathlib.Tactic
import Lojban.Text.Blank
import Lojban.Text.Lines

/-!
# Lines and their ends

What the lines of a text are, said without the reader: `IsLines ls cs` puts the text `cs` together
from the lines `ls`, each but the last with one of the three line ends behind it. `Trims line text`
says that `text` is `line` without the line ends behind it, and `Unifies cs text` that `text` is
`cs` with a line feed for each line end.

Main results:
* `isLines_iff`: every text has its lines, they are the only ones, and reading them by `lines` and
  trimming each gives them.
* `unifies_iff`: `unifyLineEnds` puts a line feed for each line end.
* `strip_eq_nil_iff`, `isBlankLine_dropRightWhile`: a line is blank exactly when nothing is left of
  it, and line ends behind it do not matter.
-/

namespace Lojban.Text

/-! ## Specification -/

/-- Holds no character that ends a line. -/
def Unbroken (cs : List Char) : Prop :=
  ∀ c ∈ cs, isLineEnd c = false

/-- `text` is `line` without the line ends behind it. -/
def Trims (line text : List Char) : Prop :=
  ∃ ends, line = text ++ ends ∧ (∀ c ∈ ends, isLineEnd c = true) ∧
    ∀ c ∈ text.getLast?, isLineEnd c = false

/-- `e` ends a line that `rest` follows. A carriage return takes the line feed behind it along. -/
inductive EndsLine : List Char → List Char → Prop
  | lineFeed {rest : List Char} : EndsLine ['\n'] rest
  | both {rest : List Char} : EndsLine ['\r', '\n'] rest
  | carriageReturn {rest : List Char} (h : rest.head? ≠ some '\n') : EndsLine ['\r'] rest

/-- The lines `ls` in order, each with a line end behind it; the last may go without one, and is
then not empty. -/
inductive IsLines : List (List Char) → List Char → Prop
  | none : IsLines [] []
  | last {l : List Char} (hl : Unbroken l) (hne : l ≠ []) : IsLines [l] l
  | cons {l e rest : List Char} {ls : List (List Char)} (hl : Unbroken l) (he : EndsLine e rest)
      (h : IsLines ls rest) : IsLines (l :: ls) (l ++ (e ++ rest))

/-- `text` is `cs` with a line feed for each line end. -/
inductive Unifies : List Char → List Char → Prop
  | nil : Unifies [] []
  | char {c : Char} {cs text : List Char} (hc : isLineEnd c = false) (h : Unifies cs text) :
      Unifies (c :: cs) (c :: text)
  | lineEnd {e rest text : List Char} (he : EndsLine e rest) (h : Unifies rest text) :
      Unifies (e ++ rest) ('\n' :: text)

/-! ## Trimming -/

theorem dropRightWhile_eq_rdropWhile (p : Char → Bool) (cs : List Char) :
    dropRightWhile p cs = cs.rdropWhile p := rfl

theorem dropRightWhile_append_rtakeWhile (p : Char → Bool) (cs : List Char) :
    dropRightWhile p cs ++ cs.rtakeWhile p = cs := by
  rw [dropRightWhile, List.rtakeWhile, ← List.reverse_append, List.takeWhile_append_dropWhile,
    List.reverse_reverse]

theorem trims_dropRightWhile (line : List Char) :
    Trims line (dropRightWhile isLineEnd line) := by
  refine ⟨line.rtakeWhile isLineEnd, (dropRightWhile_append_rtakeWhile ..).symm, ?_, ?_⟩
  · intro c hc
    exact List.mem_rtakeWhile_imp hc
  · intro c hc
    obtain ⟨hne, rfl⟩ := List.mem_getLast?_eq_getLast hc
    exact Bool.eq_false_iff.mpr (List.rdropWhile_last_not isLineEnd line hne)

/-- Trimming an unbroken line takes off exactly the line ends behind it. -/
theorem dropRightWhile_append {l e : List Char} (hl : Unbroken l)
    (he : ∀ c ∈ e, isLineEnd c = true) : dropRightWhile isLineEnd (l ++ e) = l := by
  have hlast : dropRightWhile isLineEnd l = l := by
    rw [dropRightWhile_eq_rdropWhile, List.rdropWhile_eq_self_iff]
    intro hne
    simp [hl _ (List.getLast_mem hne)]
  have hends : e.reverse.dropWhile isLineEnd = [] := by
    simpa using he
  rw [dropRightWhile, List.reverse_append, List.dropWhile_append, hends]
  exact hlast

/-- Blanks behind a text make no difference to what is left of it. -/
theorem strip_append_blanks (cs : List Char) {tail : List Char}
    (htail : ∀ c ∈ tail, isBlank c = true) : strip (cs ++ tail) = strip cs := by
  have hdrop : ∀ ds, dropRightWhile isBlank (ds ++ tail) = dropRightWhile isBlank ds := by
    intro ds
    rw [dropRightWhile, List.reverse_append, List.dropWhile_append_of_pos, dropRightWhile]
    simpa using htail
  rw [strip, List.dropWhile_append]
  split_ifs with hcs
  · rw [List.isEmpty_iff] at hcs
    rw [strip, hcs, List.dropWhile_eq_nil_iff.mpr htail]
  · exact hdrop _

/-- Blanks in front of a text make no difference to what is left of it. -/
theorem strip_blanks_append {front : List Char} (hfront : ∀ c ∈ front, isBlank c = true)
    (cs : List Char) : strip (front ++ cs) = strip cs := by
  rw [strip, List.dropWhile_append_of_pos hfront, strip]

/-- Blanks behind a text make no difference to its first field. -/
theorem firstField_append_blanks (cs : List Char) {tail : List Char}
    (htail : ∀ c ∈ tail, isBlank c = true) : firstField (cs ++ tail) = firstField cs := by
  have htake : tail.takeWhile (fun c => !isBlank c) = [] := by
    rw [List.takeWhile_eq_nil_iff]
    intro hpos
    simp [htail _ (List.getElem_mem hpos)]
  rw [firstField, firstField, List.dropWhile_append]
  split_ifs with hcs
  · rw [List.isEmpty_iff] at hcs
    rw [hcs, List.dropWhile_eq_nil_iff.mpr htail]
  · rw [List.takeWhile_append, htake, List.append_nil]
    split_ifs with hlength
    · rw [(List.takeWhile_prefix _).eq_of_length hlength]
    · rfl

/-- A text is made of what is left when the blanks at both ends are taken off, and of these. -/
theorem exists_eq_append_strip (cs : List Char) :
    ∃ behind, cs = cs.takeWhile isBlank ++ (strip cs ++ behind) := by
  refine ⟨(cs.dropWhile isBlank).rtakeWhile isBlank, ?_⟩
  rw [strip, dropRightWhile_append_rtakeWhile, List.takeWhile_append_dropWhile]

/-! ## Blank lines -/

theorem isBlank_of_isLineEnd {c : Char} (h : isLineEnd c = true) : isBlank c = true := by
  simp only [isLineEnd, Bool.or_eq_true, beq_iff_eq] at h
  rcases h with rfl | rfl <;> rfl

/-- Nothing is left of a blank line when the blanks at both ends are taken off. -/
theorem strip_eq_nil_iff {cs : List Char} : strip cs = [] ↔ isBlankLine cs = true := by
  rw [strip, dropRightWhile_eq_rdropWhile, List.rdropWhile_eq_nil_iff, isBlankLine,
    List.all_eq_true]
  constructor
  · intro h c hc
    rw [← List.takeWhile_append_dropWhile (p := isBlank) (l := cs), List.mem_append] at hc
    exact hc.elim List.mem_takeWhile_imp (h c)
  · intro h c hc
    exact h c ((List.dropWhile_sublist _).mem hc)

theorem isBlank_of_mem_rtakeWhile (cs : List Char) :
    ∀ c ∈ cs.rtakeWhile isLineEnd, isBlank c = true :=
  fun _ hc => isBlank_of_isLineEnd (List.mem_rtakeWhile_imp hc)

/-- Line ends behind a line do not make it less blank. -/
theorem isBlankLine_dropRightWhile (cs : List Char) :
    isBlankLine (dropRightWhile isLineEnd cs) = isBlankLine cs := by
  have hends := List.all_eq_true.mpr (isBlank_of_mem_rtakeWhile cs)
  conv_rhs => rw [← dropRightWhile_append_rtakeWhile isLineEnd cs]
  rw [isBlankLine, isBlankLine, List.all_append, hends, Bool.and_true]

/-- Line ends behind a line do not change its first field. -/
theorem firstField_dropRightWhile (cs : List Char) :
    firstField (dropRightWhile isLineEnd cs) = firstField cs := by
  conv_rhs => rw [← dropRightWhile_append_rtakeWhile isLineEnd cs]
  exact (firstField_append_blanks _ (isBlank_of_mem_rtakeWhile cs)).symm

/-! ## Lines -/

theorem Unbroken.takeWhile_append {l : List Char} (hl : Unbroken l) (cs : List Char) :
    (l ++ cs).takeWhile (fun c => !isLineEnd c) = l ++ cs.takeWhile fun c => !isLineEnd c :=
  List.takeWhile_append_of_pos fun c hc => by rw [hl c hc]; rfl

theorem Unbroken.dropWhile_append {l : List Char} (hl : Unbroken l) (cs : List Char) :
    (l ++ cs).dropWhile (fun c => !isLineEnd c) = cs.dropWhile fun c => !isLineEnd c :=
  List.dropWhile_append_of_pos fun c hc => by rw [hl c hc]; rfl

/-- The text starts with a line and its end: these are read first, and the rest is left. -/
theorem firstLine_append {l e rest : List Char} (hl : Unbroken l) (he : EndsLine e rest) :
    firstLine (l ++ (e ++ rest)) = l ++ ['\n'] ∧ dropLine (l ++ (e ++ rest)) = rest := by
  rw [firstLine, dropLine, hl.takeWhile_append, hl.dropWhile_append]
  cases he with
  | lineFeed => simp [isLineEnd]
  | both => simp [isLineEnd]
  | carriageReturn h =>
    cases rest with
    | nil => simp [isLineEnd]
    | cons c cs =>
      have hc : c ≠ '\n' := by simpa using h
      simp [isLineEnd, hc]

theorem firstLine_of_unbroken {l : List Char} (hl : Unbroken l) :
    firstLine l = l ∧ dropLine l = [] := by
  have htake := hl.takeWhile_append []
  have hdrop := hl.dropWhile_append []
  simp only [List.append_nil, List.takeWhile_nil, List.dropWhile_nil] at htake hdrop
  rw [firstLine, dropLine, htake, hdrop]
  exact ⟨rfl, rfl⟩

/-- A text is one line without an end, or it starts with a line and its end. -/
theorem unbroken_or_endsLine (cs : List Char) :
    Unbroken cs ∨ ∃ l e rest, Unbroken l ∧ EndsLine e rest ∧ cs = l ++ (e ++ rest) := by
  have hsplit := List.takeWhile_append_dropWhile (p := fun c => !isLineEnd c) (l := cs)
  have hl : Unbroken (cs.takeWhile fun c => !isLineEnd c) := by
    intro c hc
    simpa using List.mem_takeWhile_imp hc
  cases hrest : cs.dropWhile fun c => !isLineEnd c with
  | nil =>
    rw [hrest, List.append_nil] at hsplit
    exact .inl (hsplit ▸ hl)
  | cons c rest =>
    have hc : isLineEnd c = true := by
      simpa [hrest] using List.head?_dropWhile_not (fun c => !isLineEnd c) cs
    rw [hrest] at hsplit
    right
    simp only [isLineEnd, Bool.or_eq_true, beq_iff_eq] at hc
    rcases hc with rfl | rfl
    · exact ⟨_, _, rest, hl, .lineFeed, hsplit.symm⟩
    · by_cases hhead : rest.head? = some '\n'
      · obtain ⟨rest, rfl⟩ := List.head?_eq_some_iff.mp hhead
        exact ⟨_, _, rest, hl, .both, hsplit.symm⟩
      · exact ⟨_, _, rest, hl, .carriageReturn hhead, hsplit.symm⟩

theorem EndsLine.length_pos {e rest : List Char} (h : EndsLine e rest) : 0 < e.length := by
  cases h <;> simp

theorem exists_isLines (cs : List Char) : ∃ ls, IsLines ls cs := by
  rcases unbroken_or_endsLine cs with hl | ⟨l, e, rest, hl, he, rfl⟩
  · by_cases hne : cs = []
    · exact ⟨[], hne ▸ .none⟩
    · exact ⟨[cs], .last hl hne⟩
  · obtain ⟨ls, h⟩ := exists_isLines rest
    exact ⟨l :: ls, .cons hl he h⟩
termination_by cs.length
decreasing_by
  have := he.length_pos
  grind

theorem IsLines.eq_map_lines {ls : List (List Char)} {cs : List Char} (h : IsLines ls cs) :
    ls = (lines cs).map (dropRightWhile isLineEnd) := by
  induction h with
  | none => simp [lines]
  | @last l hl hne =>
    obtain ⟨hfirst, hdrop⟩ := firstLine_of_unbroken hl
    have htrim := dropRightWhile_append hl (e := []) (by simp)
    rw [List.append_nil] at htrim
    rw [lines, if_neg hne, hfirst, hdrop, lines, if_pos rfl, List.map_singleton, htrim]
  | @cons l e rest ls hl he _ ih =>
    obtain ⟨hfirst, hdrop⟩ := firstLine_append hl he
    have hne : l ++ (e ++ rest) ≠ [] := by
      have := he.length_pos
      intro h
      simp_all
    have htrim : dropRightWhile isLineEnd (l ++ ['\n']) = l :=
      dropRightWhile_append hl (by simp [isLineEnd])
    rw [lines, if_neg hne, hfirst, hdrop, List.map_cons, htrim, ← ih]

/-- **The lines of a text are those that are read, without their ends.** -/
theorem isLines_iff {ls : List (List Char)} {cs : List Char} :
    IsLines ls cs ↔ ls = (lines cs).map (dropRightWhile isLineEnd) := by
  refine ⟨IsLines.eq_map_lines, ?_⟩
  rintro rfl
  obtain ⟨ls, h⟩ := exists_isLines cs
  exact h.eq_map_lines ▸ h

/-! ## Line ends as line feeds -/

/-- Where no carriage return stands, the text is as it is. -/
theorem Unifies.append_left {ds cs text : List Char} (h : Unifies cs text) (hds : '\r' ∉ ds) :
    Unifies (ds ++ cs) (ds ++ text) := by
  induction ds with
  | nil => exact h
  | cons c ds ih =>
    rw [List.mem_cons, not_or] at hds
    obtain ⟨hc, hds⟩ := hds
    cases hend : isLineEnd c with
    | false => exact .char hend (ih hds)
    | true =>
      have hfeed : c = '\n' := by simpa [isLineEnd, Ne.symm hc] using hend
      subst hfeed
      exact .lineEnd (e := ['\n']) .lineFeed (ih hds)

/-- A text without carriage returns has line feeds for its line ends as it is. -/
theorem unifies_self {cs : List Char} (h : '\r' ∉ cs) : Unifies cs cs := by
  simpa using Unifies.nil.append_left h

theorem Unbroken.not_mem {l : List Char} (hl : Unbroken l) : '\r' ∉ l := by
  intro hr
  cases hl _ hr

theorem unifyLineEnds_of_unbroken {l : List Char} (hl : Unbroken l) : unifyLineEnds l = l := by
  by_cases hne : l = []
  · rw [hne, unifyLineEnds, lines, if_pos rfl]
    rfl
  · obtain ⟨hfirst, hdrop⟩ := firstLine_of_unbroken hl
    rw [unifyLineEnds, lines, if_neg hne, hfirst, hdrop, lines, if_pos rfl, List.flatten_singleton]

theorem unifyLineEnds_append {l e rest : List Char} (hl : Unbroken l) (he : EndsLine e rest) :
    unifyLineEnds (l ++ (e ++ rest)) = l ++ '\n' :: unifyLineEnds rest := by
  obtain ⟨hfirst, hdrop⟩ := firstLine_append hl he
  have hne : l ++ (e ++ rest) ≠ [] := by
    have := he.length_pos
    intro h
    simp_all
  rw [unifyLineEnds, lines, if_neg hne, hfirst, hdrop, List.flatten_cons, List.append_assoc]
  rfl

theorem unifies_unifyLineEnds (cs : List Char) : Unifies cs (unifyLineEnds cs) := by
  rcases unbroken_or_endsLine cs with hl | ⟨l, e, rest, hl, he, rfl⟩
  · rw [unifyLineEnds_of_unbroken hl]
    exact unifies_self hl.not_mem
  · rw [unifyLineEnds_append hl he]
    exact .append_left (.lineEnd he (unifies_unifyLineEnds rest)) hl.not_mem
termination_by cs.length
decreasing_by
  have := he.length_pos
  grind

theorem unifyLineEnds_cons {c : Char} (hc : isLineEnd c = false) (cs : List Char) :
    unifyLineEnds (c :: cs) = c :: unifyLineEnds cs := by
  have hcons : ∀ {l}, Unbroken l → Unbroken (c :: l) :=
    fun hl => List.forall_mem_cons.mpr ⟨hc, hl⟩
  rcases unbroken_or_endsLine cs with hl | ⟨l, e, rest, hl, he, rfl⟩
  · rw [unifyLineEnds_of_unbroken hl, unifyLineEnds_of_unbroken (hcons hl)]
  · rw [unifyLineEnds_append hl he, ← List.cons_append, unifyLineEnds_append (hcons hl) he,
      List.cons_append]

/-- **Reading every line end as a line feed puts a line feed for each line end.** -/
theorem unifies_iff {cs text : List Char} : Unifies cs text ↔ text = unifyLineEnds cs := by
  refine ⟨?_, fun h => h ▸ unifies_unifyLineEnds cs⟩
  intro h
  induction h with
  | nil => exact (unifyLineEnds_of_unbroken (l := []) (by simp [Unbroken])).symm
  | char hc _ ih => rw [unifyLineEnds_cons hc, ← ih]
  | @lineEnd e rest _ he _ ih =>
    have happend := unifyLineEnds_append (l := []) (by simp [Unbroken]) he
    rw [List.nil_append, List.nil_append] at happend
    rw [happend, ← ih]

/-- Blanks stay blank. -/
theorem Unifies.isBlank {cs text : List Char} (h : Unifies cs text)
    (hcs : ∀ c ∈ cs, isBlank c = true) : ∀ c ∈ text, isBlank c = true := by
  induction h with
  | nil => exact hcs
  | char _ _ ih =>
    rw [List.forall_mem_cons] at hcs ⊢
    exact ⟨hcs.1, ih hcs.2⟩
  | lineEnd _ _ ih =>
    rw [List.forall_mem_append] at hcs
    exact List.forall_mem_cons.mpr ⟨rfl, ih hcs.2⟩

theorem EndsLine.append {e rest ds : List Char} (h : EndsLine e rest)
    (hds : ds.head? ≠ some '\n') : EndsLine e (rest ++ ds) := by
  cases h with
  | lineFeed => exact .lineFeed
  | both => exact .both
  | carriageReturn hrest =>
    refine .carriageReturn ?_
    cases rest with
    | nil => exact hds
    | cons c rest => exact hrest

/-- Line ends are not joined where no line feed comes second. -/
theorem Unifies.append {cs ds text text' : List Char} (h : Unifies cs text)
    (h' : Unifies ds text') (hds : ds.head? ≠ some '\n') :
    Unifies (cs ++ ds) (text ++ text') := by
  induction h with
  | nil => exact h'
  | char hc _ ih => exact .char hc ih
  | lineEnd he _ ih =>
    rw [List.append_assoc]
    exact .lineEnd (he.append hds) ih

/-- If carriage returns stand only among the blanks at either end, what is left of the text is what
was there before. -/
theorem Unifies.strip_eq {cs text : List Char} (h : Unifies cs text) (hcr : '\r' ∉ strip cs) :
    strip text = strip cs := by
  let front := cs.takeWhile Text.isBlank
  let behind := (cs.dropWhile Text.isBlank).rtakeWhile Text.isBlank
  have hfront : ∀ c ∈ front, Text.isBlank c = true := fun c hc => List.mem_takeWhile_imp hc
  have hbehind : ∀ c ∈ behind, Text.isBlank c = true := fun c hc => List.mem_rtakeWhile_imp hc
  have hrest : strip cs ++ behind = cs.dropWhile Text.isBlank :=
    dropRightWhile_append_rtakeWhile ..
  have hcs : front ++ (strip cs ++ behind) = cs := by
    rw [hrest, List.takeWhile_append_dropWhile]
  -- behind the blanks in front comes no line feed, so a carriage return there stands alone
  have hseam : (strip cs ++ behind).head? ≠ some '\n' := by
    have hhead := List.head?_dropWhile_not Text.isBlank cs
    rw [hrest]
    intro hfeed
    rw [hfeed] at hhead
    cases hhead
  have hunified := (unifies_unifyLineEnds front).append
    ((unifies_unifyLineEnds behind).append_left hcr) hseam
  rw [hcs] at hunified
  calc strip text = strip (unifyLineEnds front ++ (strip cs ++ unifyLineEnds behind)) := by
        rw [unifies_iff.mp h, unifies_iff.mp hunified]
    _ = strip (strip cs) := by
        rw [strip_blanks_append ((unifies_unifyLineEnds _).isBlank hfront),
          strip_append_blanks _ ((unifies_unifyLineEnds _).isBlank hbehind)]
    _ = strip (front ++ (strip cs ++ behind)) := by
        rw [strip_blanks_append hfront, strip_append_blanks _ hbehind]
    _ = strip cs := by rw [hcs]

end Lojban.Text
