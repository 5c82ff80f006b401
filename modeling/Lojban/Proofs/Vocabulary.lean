import Lojban.Proofs.PassageTree

/-!
# The words of a tree outside a vocabulary

`Tree.firstUnknown?` looks at the words that lie below no other word, from left to right
(`firstUnknown?_eq_find?`). In a tree without words below words these are all word nodes
(`outerWords_eq_filter`).
-/

namespace Lojban

namespace Tree

mutual

/-- The words of a tree that lie below no other word, from left to right. -/
def outerWords : Tree → List Tree
  | node tag text start stop children =>
    if tag = .word then [node tag text start stop children] else outerWordsAll children

/-- The words of some trees that lie below no other word. -/
def outerWordsAll : List Tree → List Tree
  | [] => []
  | t :: ts => outerWords t ++ outerWordsAll ts

end

section Known

variable (known : String → Bool)

mutual

theorem firstUnknown?_eq_find? (t : Tree) :
    firstUnknown? known t = t.outerWords.find? fun w => !known w.text := by
  cases t with
  | node tag text start stop children =>
    rw [firstUnknown?, outerWords]
    split_ifs with htag hknown
    · simp [Tree.text, hknown]
    · simp [Tree.text, hknown]
    · exact firstUnknownAll?_eq_find? children

theorem firstUnknownAll?_eq_find? (ts : List Tree) :
    firstUnknownAll? known ts = (outerWordsAll ts).find? fun w => !known w.text := by
  cases ts with
  | nil => rw [firstUnknownAll?, outerWordsAll]; rfl
  | cons t ts =>
    rw [firstUnknownAll?, outerWordsAll, List.find?_append, firstUnknown?_eq_find? t,
      firstUnknownAll?_eq_find? ts]

end

end Known

mutual

/-- Where nothing lies below a word, all words are outer ones. -/
theorem outerWords_eq_filter (t : Tree)
    (h : ∀ n ∈ t.walk, n.isWord = true → n.children = []) :
    t.outerWords = t.walk.filter isWord := by
  cases t with
  | node tag text start stop children =>
    rw [walk_node] at h ⊢
    rw [outerWords]
    split_ifs with htag
    · have hword : (node tag text start stop children).isWord = true := by
        simp [isWord, Tree.tag, htag]
      have hnil : children = [] := h _ (List.mem_cons_self ..) hword
      subst hnil
      rw [List.filter_cons_of_pos hword, walkAll]
      rfl
    · have hword : ¬ (node tag text start stop children).isWord = true := by
        simp [isWord, Tree.tag, htag]
      rw [List.filter_cons_of_neg hword]
      exact outerWordsAll_eq_filter children fun n hn => h n (List.mem_cons_of_mem _ hn)

theorem outerWordsAll_eq_filter (ts : List Tree)
    (h : ∀ n ∈ walkAll ts, n.isWord = true → n.children = []) :
    outerWordsAll ts = (walkAll ts).filter isWord := by
  cases ts with
  | nil => rw [outerWordsAll, walkAll]; rfl
  | cons t ts =>
    rw [walkAll] at h ⊢
    rw [outerWordsAll, List.filter_append,
      outerWords_eq_filter t fun n hn => h n (List.mem_append_left _ hn),
      outerWordsAll_eq_filter ts fun n hn => h n (List.mem_append_right _ hn)]

end

end Tree

end Lojban
