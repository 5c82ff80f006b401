import Lojban.Proofs.Outcomes

/-!
# Which words of a tree are checked

`Lexicon.check` works on every tree, also on one that no text has: words may lie below words, and
tags may mean nothing. The words that count are the `topmostWords`: of all nodes in the order of
`walk`, the words with no word among the nodes that they lie below (`outerWords_eq_topmostWords`).

Main result: `check_topmost_words`. Checking a tree succeeds if its topmost words are listed, and
reports the first that is not. Where nothing lies below a word, as in the tree of a text, the same
holds of all its words.
-/

namespace Lojban

/-! ## Specification -/

namespace Tree

mutual

/-- All nodes in the order of `walk`, each behind the nodes that it lies below, which start with
those in `above`. -/
def walkWithin (above : List Tree) : Tree → List (List Tree × Tree)
  | node tag text start stop children =>
    (above, node tag text start stop children) ::
      walkAllWithin (above ++ [node tag text start stop children]) children

/-- All nodes of some trees, tree by tree. -/
def walkAllWithin (above : List Tree) : List Tree → List (List Tree × Tree)
  | [] => []
  | t :: ts => walkWithin above t ++ walkAllWithin above ts

end

/-- The node is a word, and none of the nodes that it lies below is one. -/
def isTopmost (n : List Tree × Tree) : Bool :=
  n.2.isWord && n.1.all fun a => !a.isWord

/-- The words that lie below no word, in the order of `walk`. -/
def topmostWords (t : Tree) : List Tree :=
  ((t.walkWithin []).filter isTopmost).map Prod.snd

/-- Nothing lies below a word. -/
def WordsAreLeaves (t : Tree) : Prop :=
  ∀ n ∈ t.walk, n.isWord = true → n.children = []

end Tree

namespace Lexicon

/-- The first word among the nodes `ns` that the lexicon does not list. -/
def FirstUnlisted (lex : Lexicon) (ns : List Tree) (w : Tree) : Prop :=
  w.isWord = true ∧ ¬ lex.Lists w.text ∧
    ∃ before behind, ns = before ++ w :: behind ∧ ∀ v ∈ before, v.isWord = true → lex.Lists v.text

/-- Checking the tree `t` is checking the words among the nodes `ns`: it succeeds if all of them are
listed, and otherwise reports the letters and the span of the first that is not. -/
structure ChecksWords (lex : Lexicon) (t : Tree) (ns : List Tree) : Prop where
  ok_iff : (lex.check t).value = .ok () ↔ ∀ w ∈ ns, w.isWord = true → lex.Lists w.text
  error_iff : ∀ e, (lex.check t).value = .error e ↔
    ∃ w, lex.FirstUnlisted ns w ∧ e = { word := w.text, span := w.span }

end Lexicon

/-! ## Nodes and what they lie below -/

namespace Tree

mutual

theorem map_snd_walkWithin (above : List Tree) (t : Tree) :
    (walkWithin above t).map Prod.snd = t.walk := by
  cases t with
  | node tag text start stop children =>
    rw [walkWithin, walk_node, List.map_cons, map_snd_walkAllWithin]

theorem map_snd_walkAllWithin (above : List Tree) (ts : List Tree) :
    (walkAllWithin above ts).map Prod.snd = walkAll ts := by
  cases ts with
  | nil => rw [walkAllWithin, walkAll]; rfl
  | cons t ts =>
    rw [walkAllWithin, walkAll, List.map_append, map_snd_walkWithin above t,
      map_snd_walkAllWithin above ts]

end

mutual

/-- What lies above a tree lies above all its nodes. -/
theorem prefix_of_mem_walkWithin (above : List Tree) (t : Tree) :
    ∀ n ∈ walkWithin above t, above <+: n.1 := by
  cases t with
  | node tag text start stop children =>
    intro n hn
    rw [walkWithin, List.mem_cons] at hn
    rcases hn with rfl | hn
    · exact List.prefix_rfl
    · exact (List.prefix_append ..).trans (prefix_of_mem_walkAllWithin _ children n hn)

theorem prefix_of_mem_walkAllWithin (above : List Tree) (ts : List Tree) :
    ∀ n ∈ walkAllWithin above ts, above <+: n.1 := by
  cases ts with
  | nil =>
    intro n hn
    rw [walkAllWithin] at hn
    exact absurd hn List.not_mem_nil
  | cons t ts =>
    intro n hn
    rw [walkAllWithin, List.mem_append] at hn
    rcases hn with hn | hn
    · exact prefix_of_mem_walkWithin above t n hn
    · exact prefix_of_mem_walkAllWithin above ts n hn

end

theorem isTopmost_eq_true_iff (n : List Tree × Tree) :
    isTopmost n = true ↔ n.2.isWord = true ∧ ∀ a ∈ n.1, a.isWord = false := by
  simp [isTopmost]

/-- Nothing below a word is topmost. -/
theorem filter_isTopmost_of_word {above : List Tree} (ts : List Tree)
    (h : ∃ a ∈ above, a.isWord = true) : (walkAllWithin above ts).filter isTopmost = [] := by
  obtain ⟨a, ha, hword⟩ := h
  rw [List.filter_eq_nil_iff]
  intro n hn htop
  have hmem := (prefix_of_mem_walkAllWithin above ts n hn).subset ha
  have hno := ((isTopmost_eq_true_iff n).mp htop).2 a hmem
  rw [hword] at hno
  cases hno

mutual

/-- Below nodes none of which is a word, the outer words are the topmost. -/
theorem map_filter_isTopmost {above : List Tree} (h : ∀ a ∈ above, a.isWord = false) (t : Tree) :
    ((walkWithin above t).filter isTopmost).map Prod.snd = t.outerWords := by
  cases t with
  | node tag text start stop children =>
    rw [walkWithin, outerWords]
    by_cases htag : tag = .word
    · have hword : (node tag text start stop children).isWord = true := by
        simp [isWord, Tree.tag, htag]
      rw [if_pos htag, List.filter_cons_of_pos ((isTopmost_eq_true_iff _).mpr ⟨hword, h⟩),
        filter_isTopmost_of_word children ⟨_, by simp, hword⟩]
      rfl
    · have hword : (node tag text start stop children).isWord = false := by
        simp [isWord, Tree.tag, htag]
      rw [if_neg htag, List.filter_cons_of_neg (by simp [isTopmost, hword])]
      apply mapAll_filter_isTopmost
      intro a ha
      rcases List.mem_append.mp ha with ha | ha
      · exact h a ha
      · rw [List.mem_singleton.mp ha, hword]

theorem mapAll_filter_isTopmost {above : List Tree} (h : ∀ a ∈ above, a.isWord = false)
    (ts : List Tree) :
    ((walkAllWithin above ts).filter isTopmost).map Prod.snd = outerWordsAll ts := by
  cases ts with
  | nil => rw [walkAllWithin, outerWordsAll]; rfl
  | cons t ts =>
    rw [walkAllWithin, outerWordsAll, List.filter_append, List.map_append,
      map_filter_isTopmost h t, mapAll_filter_isTopmost h ts]

end

theorem outerWords_eq_topmostWords (t : Tree) : t.outerWords = t.topmostWords := by
  have hnil : ∀ a ∈ ([] : List Tree), a.isWord = false := by simp
  exact (map_filter_isTopmost hnil t).symm

theorem filter_isWord_topmostWords (t : Tree) : t.topmostWords.filter isWord = t.topmostWords := by
  rw [List.filter_eq_self]
  intro w hw
  obtain ⟨n, hn, rfl⟩ := List.mem_map.mp hw
  exact ((isTopmost_eq_true_iff n).mp (List.mem_filter.mp hn).2).1

theorem forall_mem_words (t : Tree) (p : String → Prop) :
    (∀ w ∈ t.words, p w) ↔ ∀ n ∈ t.walk, n.isWord = true → p n.text := by
  simp only [words, List.mem_map, List.mem_filter]
  constructor
  · intro h n hn hword
    exact h n.text ⟨n, ⟨hn, hword⟩, rfl⟩
  · rintro h w ⟨n, ⟨hn, hword⟩, rfl⟩
    exact h n hn hword

end Tree

/-! ## Checking a tree -/

namespace Lexicon

variable {lex : Lexicon} {t : Tree} {ns : List Tree}

theorem find?_eq_some_iff_firstUnlisted {w : Tree} :
    ((ns.filter Tree.isWord).find? fun n => !lex.isKnown n.text) = some w ↔
      lex.FirstUnlisted ns w := by
  rw [List.find?_filter, List.find?_eq_some_iff_append]
  simp [FirstUnlisted, ← isKnown_iff, and_assoc, imp_iff_not_or]

theorem find?_eq_none_iff_lists :
    ((ns.filter Tree.isWord).find? fun n => !lex.isKnown n.text) = none ↔
      ∀ w ∈ ns, w.isWord = true → lex.Lists w.text := by
  rw [List.find?_filter, List.find?_eq_none]
  simp [← isKnown_iff]

/-- The check comes down to any nodes whose words are the outer words. -/
theorem checksWords_of_outerWords (h : t.outerWords = ns.filter Tree.isWord) :
    lex.ChecksWords t ns := by
  have hvalue := value_check lex t
  rw [Tree.firstUnknown?_eq_find?, h] at hvalue
  constructor
  · rw [← find?_eq_none_iff_lists, hvalue]
    cases (ns.filter Tree.isWord).find? fun n => !lex.isKnown n.text <;> simp
  · intro e
    simp only [← find?_eq_some_iff_firstUnlisted, hvalue]
    cases (ns.filter Tree.isWord).find? fun n => !lex.isKnown n.text <;> simp [eq_comm]

/-- **Checking a tree is checking its topmost words,** which are all its words where nothing lies
below a word, as in the tree of a text. -/
theorem check_topmost_words (lex : Lexicon) (t : Tree) :
    lex.ChecksWords t t.topmostWords ∧
    (t.WordsAreLeaves →
      lex.ChecksWords t t.walk ∧
        ((lex.check t).value = .ok () ↔ ∀ w ∈ t.words, lex.Lists w)) ∧
    ∀ text, Tree.ofText text = .ok t → t.WordsAreLeaves := by
  refine ⟨?_, ?_, ?_⟩
  · apply checksWords_of_outerWords
    rw [Tree.filter_isWord_topmostWords, Tree.outerWords_eq_topmostWords]
  · intro hleaves
    have hwalk : lex.ChecksWords t t.walk :=
      checksWords_of_outerWords (Tree.outerWords_eq_filter t hleaves)
    refine ⟨hwalk, ?_⟩
    rw [hwalk.ok_iff, Tree.forall_mem_words]
  · intro text ht
    obtain ⟨p, -, rfl⟩ := Tree.ofText_eq_ok_iff.mp ht
    exact Passage.children_eq_nil

/-- A tree with a word below a tag that means nothing. -/
def quotedTree : Tree :=
  .node .text "mi zo'e klama" 0 13
    [.node .sentence "mi" 0 2 [.node .word "mi" 0 2 []],
      .node (.other "quote" (by decide)) "zo'e" 3 7 [.node .word "zo'e" 3 7 []],
      .node .sentence "klama" 8 13 [.node .word "klama" 8 13 []]]

theorem check_quoted_word :
    quotedTree.WordsAreLeaves ∧
      ({ cmavo := .ofList ["mi"] } : Lexicon).ChecksWords quotedTree quotedTree.walk ∧
      (({ cmavo := .ofList ["mi"] } : Lexicon).check quotedTree).value =
        .error { word := "zo'e", span := (3, 7) } := by
  have hleaves : quotedTree.WordsAreLeaves := by
    simp [Tree.WordsAreLeaves, quotedTree, Tree.walk, Tree.walkAll, Tree.isWord, Tree.tag,
      Tree.children]
  have hcheck := ((check_topmost_words { cmavo := .ofList ["mi"] } quotedTree).2.1 hleaves).1
  refine ⟨hleaves, hcheck, ?_⟩
  cbv

end Lexicon

end Lojban
