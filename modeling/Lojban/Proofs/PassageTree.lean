import Mathlib.Tactic
import Lojban.Tree.OfText

/-!
# The nodes of the tree of a passage

What `Tree.walk` and `Tree.words` list for the trees that passages are laid out as. The nodes below
the root are the sentences, each followed by its words; the word nodes alone are the words of the
passage in order.
-/

namespace Lojban

namespace Tree

theorem walk_node (tag : Tag) (text : String) (start stop : ℤ) (children : List Tree) :
    walk (.node tag text start stop children) =
      .node tag text start stop children :: walkAll children := by
  rw [walk]

theorem walkAll_eq_flatMap (ts : List Tree) : walkAll ts = ts.flatMap walk := by
  induction ts with
  | nil => rw [walkAll]; rfl
  | cons t ts ih => rw [walkAll, ih, List.flatMap_cons]

end Tree

/-- The words of all sentences in order. -/
def Passage.words (p : Passage) : List Word :=
  p.sentences.flatMap Sentence.words

@[simp] theorem Passage.words_consWord (w : Word) (p : Passage) :
    (p.consWord w).words = w :: p.words := rfl

@[simp] theorem Passage.words_consSentence (w : Word) (p : Passage) :
    (p.consSentence w).words = w :: p.words := rfl

section Nodes

variable (x : Text.ByteIndex)

theorem Word.walk_toTree (w : Word) : (w.toTree x).walk = [w.toTree x] := by
  rw [Word.toTree, Tree.walk_node, Tree.walkAll]

theorem Word.walkAll_toTree (ws : List Word) :
    Tree.walkAll (ws.map (Word.toTree x)) = ws.map (Word.toTree x) := by
  rw [Tree.walkAll_eq_flatMap, List.flatMap_map]
  simp only [Word.walk_toTree]
  exact List.flatMap_pure_eq_map ..

theorem Sentence.walk_toTree (s : Sentence) :
    (s.toTree x).walk = s.toTree x :: s.words.map (Word.toTree x) := by
  rw [Sentence.toTree, compositeNode, Tree.walk_node, Word.walkAll_toTree]

theorem Passage.walk_toTree (p : Passage) :
    (p.toTree x).walk = p.toTree x ::
      p.sentences.flatMap fun s => s.toTree x :: s.words.map (Word.toTree x) := by
  rw [Passage.toTree, compositeNode, Tree.walk_node, Tree.walkAll_eq_flatMap, List.flatMap_map]
  simp only [Sentence.walk_toTree]

@[simp] theorem Word.isWord_toTree (w : Word) : (w.toTree x).isWord = true := rfl

@[simp] theorem Sentence.isWord_toTree (s : Sentence) : (s.toTree x).isWord = false := rfl

@[simp] theorem Passage.isWord_toTree (p : Passage) : (p.toTree x).isWord = false := rfl

theorem Word.filter_isWord (ws : List Word) :
    (ws.map (Word.toTree x)).filter Tree.isWord = ws.map (Word.toTree x) := by
  rw [List.filter_eq_self]
  intro n hn
  obtain ⟨w, -, rfl⟩ := List.mem_map.mp hn
  exact Word.isWord_toTree x w

/-- The word nodes of a passage are its words. -/
theorem Passage.filter_isWord_walk (p : Passage) :
    (p.toTree x).walk.filter Tree.isWord = p.words.map (Word.toTree x) := by
  rw [Passage.walk_toTree, List.filter_cons_of_neg (by simp), List.filter_flatMap, Passage.words,
    List.map_flatMap]
  congr 1
  funext s
  rw [List.filter_cons_of_neg (by simp), Word.filter_isWord]

theorem Sentence.words_toTree (s : Sentence) :
    (s.toTree x).words = s.words.map fun w => String.ofList w.letters := by
  rw [Tree.words, Sentence.walk_toTree, List.filter_cons_of_neg (by simp), Word.filter_isWord,
    List.map_map]
  rfl

end Nodes

/-- A text has a tree exactly when it has a passage, which the tree lays out. -/
theorem Tree.ofText_eq_ok_iff {text : String} {t : Tree} :
    Tree.ofText text = .ok t ↔
      ∃ p, Passage.ofText text.toList = .ok p ∧ t = p.toTree (.of text.toList) := by
  rw [Tree.ofText]
  cases Passage.ofText text.toList with
  | ok p => simp [eq_comm]
  | error f => simp

end Lojban
