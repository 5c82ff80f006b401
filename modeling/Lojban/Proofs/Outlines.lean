import Mathlib
import Lojban.Proofs.TreeDocuments
import Lojban.Proofs.WordCheck

/-!
# Outlines

An outline shows the nodes of a tree in the order of `walk`, one a line, indented by how many nodes
they lie below. Only words show their text. So an outline cannot tell trees apart that are `Alike`:
they have the same shape, the same tags and spans, and the same texts at their words. It tells all
others apart, unless there is a line feed in a word.

Main result: `outline_determines`.
-/

namespace Lojban

namespace Tree

/-! ## Specification -/

/-- Trees of the same shape, with the same tag and the same span at each node, and at each word the
same text. -/
inductive Alike : Tree → Tree → Prop
  | node {tag : Tag} {text text' : String} {start stop : ℤ} {children children' : List Tree}
      (word_text : tag = .word → text = text')
      (below : List.Forall₂ Alike children children') :
      Alike (.node tag text start stop children) (.node tag text' start stop children')

/-- No word has a line feed in its text. -/
def WordsUnbroken (t : Tree) : Prop :=
  ∀ n ∈ t.walk, n.isWord = true → '\n' ∉ n.text.toList

/-- The line of a node that lies `depth` levels below the root. -/
def outlineLine (depth : ℕ) (n : Tree) : String :=
  String.join (List.replicate depth "  ") ++ n.label

/-- The lines that line feeds separate. -/
def linesOf (text : String) : List String :=
  (text.toList.splitOn '\n').map String.ofList

/-! ## The line of a node -/

/-- The text of a word as a line shows it. -/
def shownText (n : Tree) : String :=
  if n.isWord then " '" ++ n.text ++ "'" else ""

theorem toList_outlineLine (depth : ℕ) (n : Tree) :
    (outlineLine depth n).toList = List.replicate (2 * depth) ' ' ++ n.label.toList := by
  unfold outlineLine
  rw [String.toList_append]
  congr 1
  induction depth with
  | zero => rfl
  | succ depth ih =>
    rw [List.replicate_succ, String.join_cons, String.toList_append, ih]
    rfl

theorem toList_label (n : Tree) :
    n.label.toList = n.tag.name.toList ++ ' ' :: ((toString n.start).toList ++
      '.' :: '.' :: ((toString n.stop).toList ++ n.shownText.toList)) := by
  simp [label, shownText]

theorem mem_toString_int {n : ℤ} {c : Char} (h : c ∈ (toString n).toList) :
    c.isDigit = true ∨ c = '-' := by
  have hdigits : ∀ m : ℕ, c ∈ Nat.toDigits 10 m → c.isDigit = true :=
    fun m hc => Nat.isDigit_of_mem_toDigits (by decide) (by decide) hc
  obtain ⟨m, -, heq⟩ | ⟨m, -, heq⟩ := Json.toList_toString_int n
  · rw [heq] at h
    exact .inl (hdigits m h)
  · rw [heq, List.mem_cons] at h
    exact h.elim .inr fun hc => .inl (hdigits m hc)

theorem not_mem_toString_int (n : ℤ) {c : Char} (h : c ∈ [' ', '.', '\n']) :
    c ∉ (toString n).toList := by
  intro hc
  fin_cases h <;> exact absurd (mem_toString_int hc) (by decide)

theorem not_mem_tagName {tag : Tag} (htag : tag.isOwn = true) {c : Char} (h : c ∈ [' ', '\n']) :
    c ∉ tag.name.toList := by
  cases tag with
  | text | sentence | word => fin_cases h <;> decide
  | other => cases htag

theorem ne_space_of_toList_label {n : Tree} (hn : n.tag.isOwn = true) :
    ∃ c cs, n.label.toList = c :: cs ∧ c ≠ ' ' := by
  rw [toList_label]
  cases htag : n.tag with
  | text => exact ⟨'t', _, rfl, by decide⟩
  | sentence => exact ⟨'s', _, rfl, by decide⟩
  | word => exact ⟨'w', _, rfl, by decide⟩
  | other => rw [htag] at hn; cases hn

/-- How many spaces a line starts with. -/
def indentOf (line : String) : ℕ :=
  (line.toList.takeWhile (· = ' ')).length

theorem indentOf_outlineLine (depth : ℕ) {n : Tree} (hn : n.tag.isOwn = true) :
    indentOf (outlineLine depth n) = 2 * depth := by
  obtain ⟨c, cs, hlabel, hc⟩ := ne_space_of_toList_label hn
  unfold indentOf
  rw [toList_outlineLine, hlabel]
  simp [hc]

/-- Texts that agree up to a character and behind it agree on either side of its first place. -/
theorem append_cons_inj {c : Char} {l l' r r' : List Char} (hl : c ∉ l) (hl' : c ∉ l')
    (h : l ++ c :: r = l' ++ c :: r') : l = l' ∧ r = r' := by
  have hfirst : ∀ {l r : List Char}, c ∉ l → (l ++ c :: r).takeWhile (· ≠ c) = l := by
    intro l r hl
    rw [List.takeWhile_append_of_pos]
    · simp
    · intro d hd
      simpa using ne_of_mem_of_not_mem hd hl
  have heq := congrArg (List.takeWhile (· ≠ c)) h
  rw [hfirst hl, hfirst hl'] at heq
  subst heq
  exact ⟨rfl, (List.cons.inj (List.append_cancel_left h)).2⟩

/-- The label of a node shows its tag, its span and, of a word, its text. -/
theorem label_inj {n n' : Tree} (hn : n.tag.isOwn = true) (hn' : n'.tag.isOwn = true)
    (h : n.label = n'.label) :
    n.tag = n'.tag ∧ n.start = n'.start ∧ n.stop = n'.stop ∧
      (n.tag = .word → n.text = n'.text) := by
  have hlabel := congrArg String.toList h
  rw [toList_label, toList_label] at hlabel
  obtain ⟨hname, hspan⟩ := append_cons_inj (not_mem_tagName hn (by simp))
    (not_mem_tagName hn' (by simp)) hlabel
  have htag := Tag.name_inj (String.toList_inj.mp hname)
  obtain ⟨hstart, hrest⟩ := append_cons_inj (not_mem_toString_int _ (by simp))
    (not_mem_toString_int _ (by simp)) hspan
  have hrest := (List.cons.inj hrest).2
  have hint : ∀ {a b : ℤ}, (toString a).toList = (toString b).toList → a = b :=
    fun heq => Int.repr_injective (String.toList_inj.mp heq)
  by_cases hword : n.tag = .word
  · have hword' : n'.tag = .word := htag ▸ hword
    have hshown : ∀ {m : Tree}, m.tag = .word →
        m.shownText.toList = ' ' :: '\'' :: (m.text.toList ++ ['\'']) := by
      intro m hm
      simp [shownText, isWord, hm]
    rw [hshown hword, hshown hword'] at hrest
    obtain ⟨hstop, htext⟩ := append_cons_inj (not_mem_toString_int _ (by simp))
      (not_mem_toString_int _ (by simp)) hrest
    have htext := List.append_cancel_right (List.cons.inj htext).2
    exact ⟨htag, hint hstart, hint hstop, fun _ => String.toList_inj.mp htext⟩
  · have hword' : ¬ n'.tag = .word := htag ▸ hword
    have hshown : ∀ {m : Tree}, ¬ m.tag = .word → m.shownText.toList = [] := by
      intro m hm
      simp [shownText, isWord, hm]
    rw [hshown hword, hshown hword', List.append_nil, List.append_nil] at hrest
    exact ⟨htag, hint hstart, hint hrest, fun hw => absurd hw hword⟩

/-! ## The lines of a tree -/

theorem outlineLines_node (depth : ℕ) (tag : Tag) (text : String) (start stop : ℤ)
    (children : List Tree) :
    outlineLines "  " depth (node tag text start stop children) =
      outlineLine depth (node tag text start stop children) ::
        outlineLinesAll "  " (depth + 1) children := by
  rw [outlineLines]
  rfl

mutual

/-- Each line shows one node, in the order of `walk`. -/
theorem outlineLines_eq (above : List Tree) (t : Tree) :
    outlineLines "  " above.length t =
      (walkWithin above t).map fun n => outlineLine n.1.length n.2 := by
  obtain ⟨tag, text, start, stop, children⟩ := t
  have hbelow := outlineLinesAll_eq (above ++ [node tag text start stop children]) children
  rw [List.length_append, List.length_singleton] at hbelow
  rw [outlineLines_node, walkWithin, List.map_cons, hbelow]

theorem outlineLinesAll_eq (above : List Tree) (ts : List Tree) :
    outlineLinesAll "  " above.length ts =
      (walkAllWithin above ts).map fun n => outlineLine n.1.length n.2 := by
  cases ts with
  | nil => rw [outlineLinesAll, walkAllWithin]; rfl
  | cons t ts =>
    rw [outlineLinesAll, walkAllWithin, List.map_append, outlineLines_eq above t,
      outlineLinesAll_eq above ts]

end

/-- There is a line feed in no line of a tree with unbroken words. -/
theorem not_mem_outlineLine {depth : ℕ} {n : Tree} (hn : n.tag.isOwn = true)
    (hword : n.isWord = true → '\n' ∉ n.text.toList) : '\n' ∉ (outlineLine depth n).toList := by
  have hname := not_mem_tagName hn (c := '\n') (by simp)
  have hstart := not_mem_toString_int n.start (c := '\n') (by simp)
  have hstop := not_mem_toString_int n.stop (c := '\n') (by simp)
  have hshown : '\n' ∉ n.shownText.toList := by
    unfold shownText
    split_ifs with h
    · simpa using hword h
    · simp
  rw [toList_outlineLine, toList_label]
  simp only [List.mem_append, List.mem_cons, List.mem_replicate, hname, hstart, hstop, hshown]
  simp

/-! ## The tree of some lines -/

/-- What comes next lies less deep than `depth`. -/
def Shallower (depth : ℕ) (lines : List String) : Prop :=
  ∀ line ∈ lines.head?, indentOf line < 2 * depth

theorem head?_outlineLinesAll (depth : ℕ) {t : Tree} (ts : List Tree) (ht : t.isOwn = true)
    (rest : List String) :
    ∃ line ∈ (outlineLinesAll "  " depth (t :: ts) ++ rest).head?, indentOf line = 2 * depth := by
  obtain ⟨tag, text, start, stop, children⟩ := t
  have htag : (node tag text start stop children).tag.isOwn = true := (isOwn_node_iff.mp ht).1
  refine ⟨outlineLine depth (node tag text start stop children), ?_,
    indentOf_outlineLine depth htag⟩
  rw [outlineLinesAll, outlineLines_node]
  rfl

/-- The lines of trees that lie at `depth` do not lie less deep. -/
theorem not_shallower_outlineLinesAll {depth : ℕ} {t : Tree} (ts : List Tree)
    (ht : t.isOwn = true) (rest : List String) :
    ¬ Shallower depth (outlineLinesAll "  " depth (t :: ts) ++ rest) := by
  intro h
  obtain ⟨line, hline, hindent⟩ := head?_outlineLinesAll depth ts ht rest
  have := h line hline
  omega

/-- Behind the lines of a tree come those of its neighbours, and then what lies less deep. -/
theorem Shallower.append {depth : ℕ} {rest : List String} (hrest : Shallower depth rest)
    {ts : List Tree} (hts : ∀ t ∈ ts, t.isOwn = true) :
    Shallower (depth + 1) (outlineLinesAll "  " depth ts ++ rest) := by
  intro line hline
  cases ts with
  | nil =>
    rw [outlineLinesAll, List.nil_append] at hline
    have := hrest line hline
    omega
  | cons t ts =>
    obtain ⟨line', hline', hindent⟩ :=
      head?_outlineLinesAll depth ts (hts t List.mem_cons_self) rest
    rw [Option.mem_unique hline hline']
    omega

mutual

/-- The lines of a tree determine it, also when other lines follow. -/
theorem alike_of_outlineLines (depth : ℕ) (t u : Tree) (ht : t.isOwn = true) (hu : u.isOwn = true)
    {rest rest' : List String} (hrest : Shallower (depth + 1) rest)
    (hrest' : Shallower (depth + 1) rest')
    (h : outlineLines "  " depth t ++ rest = outlineLines "  " depth u ++ rest') :
    Alike t u ∧ rest = rest' := by
  obtain ⟨tag, text, start, stop, children⟩ := t
  obtain ⟨tag', text', start', stop', children'⟩ := u
  rw [isOwn_node_iff] at ht hu
  rw [outlineLines_node, outlineLines_node, List.cons_append, List.cons_append,
    List.cons.injEq] at h
  have hlabel := String.toList_inj.mpr h.1
  rw [toList_outlineLine, toList_outlineLine] at hlabel
  have hlabel := String.toList_inj.mp (List.append_cancel_left hlabel)
  have htag : (node tag text start stop children).tag.isOwn = true := ht.1
  have htag' : (node tag' text' start' stop' children').tag.isOwn = true := hu.1
  obtain ⟨rfl, rfl, rfl, htext⟩ : tag = tag' ∧ start = start' ∧ stop = stop' ∧
      (tag = .word → text = text') := label_inj htag htag' hlabel
  obtain ⟨hchildren, heq⟩ :=
    alike_of_outlineLinesAll (depth + 1) children children' ht.2 hu.2 hrest hrest' h.2
  exact ⟨.node htext hchildren, heq⟩

theorem alike_of_outlineLinesAll (depth : ℕ) (ts us : List Tree) (ht : ∀ t ∈ ts, t.isOwn = true)
    (hu : ∀ u ∈ us, u.isOwn = true) {rest rest' : List String} (hrest : Shallower depth rest)
    (hrest' : Shallower depth rest')
    (h : outlineLinesAll "  " depth ts ++ rest = outlineLinesAll "  " depth us ++ rest') :
    List.Forall₂ Alike ts us ∧ rest = rest' := by
  cases ts with
  | nil =>
    cases us with
    | nil =>
      rw [outlineLinesAll] at h
      exact ⟨.nil, h⟩
    | cons u us =>
      rw [outlineLinesAll, List.nil_append] at h
      rw [h] at hrest
      exact absurd hrest (not_shallower_outlineLinesAll us (hu u List.mem_cons_self) rest')
  | cons t ts =>
    cases us with
    | nil =>
      have h := h.symm
      rw [outlineLinesAll, List.nil_append] at h
      rw [h] at hrest'
      exact absurd hrest' (not_shallower_outlineLinesAll ts (ht t List.mem_cons_self) rest)
    | cons u us =>
      rw [List.forall_mem_cons] at ht hu
      rw [outlineLinesAll, outlineLinesAll, List.append_assoc, List.append_assoc] at h
      obtain ⟨hfirst, h⟩ := alike_of_outlineLines depth t u ht.1 hu.1
        (hrest.append ht.2) (hrest'.append hu.2) h
      obtain ⟨hothers, heq⟩ := alike_of_outlineLinesAll depth ts us ht.2 hu.2 hrest hrest' h
      exact ⟨.cons hfirst hothers, heq⟩

end

mutual

/-- An outline does not tell trees apart that are alike. -/
theorem outlineLines_of_alike (depth : ℕ) (t u : Tree) (h : Alike t u) :
    outlineLines "  " depth t = outlineLines "  " depth u := by
  obtain ⟨tag, text, start, stop, children⟩ := t
  cases h with
  | @node _ _ text' _ _ _ children' htext hbelow =>
    have hlabel : (node tag text start stop children).label =
        (node tag text' start stop children').label := by
      by_cases hword : tag = .word
      · rw [htext hword]
        rfl
      · simp [label, isWord, Tree.tag, Tree.start, Tree.stop, hword]
    rw [outlineLines_node, outlineLines_node, outlineLine, outlineLine, hlabel,
      outlineLinesAll_of_alike (depth + 1) children children' hbelow]

theorem outlineLinesAll_of_alike (depth : ℕ) (ts us : List Tree) (h : List.Forall₂ Alike ts us) :
    outlineLinesAll "  " depth ts = outlineLinesAll "  " depth us := by
  cases ts with
  | nil =>
    cases h
    rfl
  | cons t ts =>
    cases h with
    | @cons _ u _ us hfirst hothers =>
      rw [outlineLinesAll, outlineLinesAll, outlineLines_of_alike depth t u hfirst,
        outlineLinesAll_of_alike depth ts us hothers]

end

/-! ## Outlines -/

/-- Splitting an outline at line feeds gives the lines of the tree. -/
theorem linesOf_outline {t : Tree} (hown : t.isOwn = true) (hwords : t.WordsUnbroken) :
    linesOf t.outline = outlineLines "  " 0 t := by
  have hlines : outlineLines "  " 0 t =
      (t.walkWithin []).map fun n => outlineLine n.1.length n.2 := outlineLines_eq [] t
  have hunbroken : ∀ cs ∈ (outlineLines "  " 0 t).map String.toList, '\n' ∉ cs := by
    intro cs hcs
    rw [hlines, List.map_map] at hcs
    obtain ⟨n, hn, rfl⟩ := List.mem_map.mp hcs
    have hwalk : n.2 ∈ t.walk := by
      rw [← map_snd_walkWithin [] t]
      exact List.mem_map_of_mem hn
    exact not_mem_outlineLine (List.all_eq_true.mp hown n.2 hwalk) (hwords n.2 hwalk)
  have hne : (outlineLines "  " 0 t).map String.toList ≠ [] := by
    obtain ⟨tag, text, start, stop, children⟩ := t
    rw [outlineLines_node]
    exact List.cons_ne_nil _ _
  unfold linesOf outline
  rw [String.toList_intercalate]
  show ((['\n'].intercalate _).splitOn '\n').map String.ofList = _
  rw [List.splitOn_intercalate '\n' hunbroken hne, List.map_map]
  simp

/-- **An outline determines its tree,** as far as it shows it. For trees whose tags all have a
meaning and that have no line feed in a word, the lines of the outline show the nodes in the order
of `walk`, one a line, and two outlines are equal exactly if the trees are alike. -/
theorem outline_determines {t : Tree} (hown : t.isOwn = true) (hwords : t.WordsUnbroken) :
    t.outline? = some t.outline ∧
      linesOf t.outline = ((t.walkWithin []).map fun n => outlineLine n.1.length n.2) ∧
      (t.walkWithin []).map Prod.snd = t.walk ∧ (linesOf t.outline).length = t.walk.length ∧
      ∀ u : Tree, u.isOwn = true → u.WordsUnbroken → (u.outline = t.outline ↔ Alike u t) := by
  have hlines : outlineLines "  " 0 t =
      (t.walkWithin []).map fun n => outlineLine n.1.length n.2 := outlineLines_eq [] t
  refine ⟨if_pos hown, ?_, map_snd_walkWithin [] t, ?_, ?_⟩
  · rw [linesOf_outline hown hwords, hlines]
  · rw [linesOf_outline hown hwords, hlines, ← map_snd_walkWithin [] t, List.length_map,
      List.length_map]
  · intro u hu huwords
    constructor
    · intro h
      have heq := congrArg linesOf h
      rw [linesOf_outline hown hwords, linesOf_outline hu huwords] at heq
      have hend : Shallower 1 [] := by
        intro line hline
        cases hline
      exact (alike_of_outlineLines 0 u t hu hown hend hend (by rw [heq])).1
    · intro h
      unfold outline
      rw [outlineLines_of_alike 0 u t h]

/-- The text of this word looks like a label. -/
def trickyTree : Tree :=
  .node .text "a\nb" 0 3 [.node .word "x' word 1..2 'y" (-1) 0 [.node .sentence "" 1 1 []]]

theorem outline_determines_tricky :
    trickyTree.isOwn = true ∧ trickyTree.WordsUnbroken ∧
      (linesOf trickyTree.outline).length = 3 ∧
      ∀ u : Tree, u.isOwn = true → u.WordsUnbroken →
        (u.outline = trickyTree.outline ↔ Alike u trickyTree) := by
  have hown : trickyTree.isOwn = true := rfl
  have hwords : trickyTree.WordsUnbroken := by
    simp [WordsUnbroken, trickyTree, walk, walkAll, isWord, tag, text]
  exact ⟨hown, hwords, (outline_determines hown hwords).2.2.2⟩

end Tree

end Lojban
