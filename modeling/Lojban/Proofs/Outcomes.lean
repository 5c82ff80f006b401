import Lojban.Proofs.Spans
import Lojban.Proofs.Vocabulary
import Lojban.Reading

/-!
# Reading a text with a lexicon

`Lexicon.read` has three outcomes. `ReadsUngrammatical`: the text has no tree, and whatever the
lexicon, it is refused with the same error. `ReadsTree`: the lexicon lists all words, and the tree of
the text is returned. `ReadsUnknown`: the leftmost word that the lexicon does not list is reported,
with the bytes it takes up.

Main result: `read_outcomes`, exactly one of the three is the case.
-/

namespace Lojban

open Text Utf8

namespace Lexicon

/-! ## Specification -/

/-- The word is in one of the two lists that count. -/
def Lists (lex : Lexicon) (word : String) : Prop :=
  word ∈ lex.cmavo ∨ word ∈ lex.gismu

instance (lex : Lexicon) (word : String) : Decidable (lex.Lists word) :=
  inferInstanceAs (Decidable (_ ∨ _))

/-- The word nodes of a tree that the lexicon does not list, from left to right. -/
def unlisted (lex : Lexicon) (t : Tree) : List Tree :=
  t.walk.filter fun n => n.isWord ∧ ¬ lex.Lists n.text

/-- The text has no tree, and its error is the outcome with this lexicon and every other. -/
def ReadsUngrammatical (lex : Lexicon) (threshold : Level) (text : String) : Prop :=
  ∃ e, Tree.ofText text = .error e ∧
    (lex.read threshold text).value = .error (.ungrammatical e) ∧
    ∀ (lex' : Lexicon) (threshold' : Level),
      (lex'.read threshold' text).value = .error (.ungrammatical e)

/-- All words of the text are listed, and its tree is the outcome. -/
def ReadsTree (lex : Lexicon) (threshold : Level) (text : String) : Prop :=
  ∃ t, Tree.ofText text = .ok t ∧ (∀ w ∈ t.words, lex.Lists w) ∧
    (lex.read threshold text).value = .ok t

/-- Some words of the text are not listed. The first of them, `n`, is the outcome, the bytes from
`s` to `e` are its letters, and all others start behind `s`. -/
def ReadsUnknown (lex : Lexicon) (threshold : Level) (text : String) : Prop :=
  ∃ (t n : Tree) (rest : List Tree) (s e : ℕ),
    Tree.ofText text = .ok t ∧ lex.unlisted t = n :: rest ∧
    (lex.read threshold text).value = .error (.unknownWord { word := n.text, span := (s, e) }) ∧
    n.span = ((s : ℤ), (e : ℤ)) ∧ bytesBetween text s e = encode n.text.toList ∧
    ∀ m ∈ rest, s < m.start

/-! ## What reading gives -/

theorem isKnown_iff (lex : Lexicon) (word : String) : lex.isKnown word = true ↔ lex.Lists word := by
  rw [isKnown, Bool.or_eq_true, Std.TreeSet.contains_iff_mem, Std.TreeSet.contains_iff_mem]
  rfl

theorem value_check (lex : Lexicon) (t : Tree) :
    (lex.check t).value =
      match t.firstUnknown? lex.isKnown with
      | none => .ok ()
      | some w => .error { word := w.text, span := w.span } := by
  rw [check]
  cases t.firstUnknown? lex.isKnown <;> rfl

/-- The outcome, whichever records are kept. -/
theorem value_read (lex : Lexicon) (threshold : Level) (text : String) :
    (lex.read threshold text).value =
      match Tree.ofText text with
      | .error e => .error (.ungrammatical e)
      | .ok t =>
        match t.firstUnknown? lex.isKnown with
        | none => .ok t
        | some w => .error (.unknownWord { word := w.text, span := w.span }) := by
  unfold read Tree.read
  cases Tree.ofText text with
  | error e => rfl
  | ok t =>
    simp only [Logged.value_bind, Logged.value_pure]
    split_ifs <;> simp only [Logged.value_bind, value_check] <;>
      cases t.firstUnknown? lex.isKnown <;> rfl

/-- A text that is accepted has the tree that is given for it. -/
theorem ofText_of_read {lex : Lexicon} {threshold : Level} {text : String} {t : Tree}
    (h : (lex.read threshold text).value = .ok t) : Tree.ofText text = .ok t := by
  rw [value_read] at h
  split at h
  · cases h
  · next ht =>
    split at h <;> cases h
    exact ht

/-- A text is refused because it has no tree, or at the first unknown word of its tree. -/
theorem cases_of_read_error {lex : Lexicon} {threshold : Level} {text : String} {f : Failure}
    (h : (lex.read threshold text).value = .error f) :
    (∃ e, Tree.ofText text = .error e ∧ f = .ungrammatical e) ∨
      ∃ t n, Tree.ofText text = .ok t ∧ t.firstUnknown? lex.isKnown = some n ∧
        f = .unknownWord { word := n.text, span := n.span } := by
  rw [value_read] at h
  split at h
  · next e he =>
    cases h
    exact .inl ⟨e, he, rfl⟩
  · next t ht =>
    split at h <;> cases h
    next n hn => exact .inr ⟨t, n, ht, hn, rfl⟩

/-! ## Words that are not listed -/

theorem unlisted_eq_filter (lex : Lexicon) (t : Tree) :
    lex.unlisted t = (t.walk.filter Tree.isWord).filter fun n => ¬ lex.Lists n.text := by
  rw [unlisted, List.filter_filter]
  congr 1
  funext n
  simp [Bool.and_comm]

theorem unlisted_eq_nil_iff (lex : Lexicon) (t : Tree) :
    lex.unlisted t = [] ↔ ∀ w ∈ t.words, lex.Lists w := by
  rw [unlisted_eq_filter, List.filter_eq_nil_iff, Tree.words]
  simp only [List.mem_map, decide_eq_true_eq, not_not]
  constructor
  · rintro h w ⟨n, hn, rfl⟩
    exact h n hn
  · intro h n hn
    exact h n.text ⟨n, hn, rfl⟩

/-- Where nothing lies below a word, the first unknown word is the first that is not listed. -/
theorem firstUnknown?_eq_head? (lex : Lexicon) (t : Tree)
    (h : ∀ n ∈ t.walk, n.isWord = true → n.children = []) :
    t.firstUnknown? lex.isKnown = (lex.unlisted t).head? := by
  rw [Tree.firstUnknown?_eq_find?, Tree.outerWords_eq_filter t h, unlisted_eq_filter,
    List.head?_filter]
  congr 1
  funext n
  simp only [← isKnown_iff]
  cases lex.isKnown n.text <;> rfl

end Lexicon

namespace Passage

theorem children_eq_nil {x : ByteIndex} {p : Passage} :
    ∀ n ∈ (p.toTree x).walk, n.isWord = true → n.children = [] := by
  intro n hn hword
  rcases mem_walk_toTree.mp hn with rfl | ⟨s, -, rfl | ⟨w, -, rfl⟩⟩
  · cases hword
  · cases hword
  · rfl

namespace LaidOut

variable {text : String} {p : Passage} (h : p.LaidOut text.toList)

include h

/-- The words that a lexicon does not list lie one behind the other. -/
theorem pairwise_unlisted (lex : Lexicon) :
    (lex.unlisted (p.toTree (.of text.toList))).Pairwise Tree.Precedes := by
  rw [Lexicon.unlisted_eq_filter, filter_isWord_walk]
  exact h.pairwise_words.filter _

/-- The first word that a lexicon does not list takes up the bytes of its letters, and all others
start behind it. -/
theorem unlisted_eq_cons {lex : Lexicon} {n : Tree} {rest : List Tree}
    (hn : lex.unlisted (p.toTree (.of text.toList)) = n :: rest) :
    ∃ s e : ℕ, n.span = ((s : ℤ), (e : ℤ)) ∧ bytesBetween text s e = encode n.text.toList ∧
      ∀ m ∈ rest, s < m.start := by
  have hmem : n ∈ (p.toTree (.of text.toList)).walk :=
    (List.mem_filter.mp (hn ▸ List.mem_cons_self ..)).1
  obtain ⟨i, j, hij⟩ := h.standsFor_node hmem
  have hpairwise := h.pairwise_unlisted lex
  rw [hn, List.pairwise_cons] at hpairwise
  refine ⟨byteLength (text.toList.take i), byteLength (text.toList.take j), ?_, ?_, ?_⟩
  · rw [Tree.span, hij.start_natCast, hij.stop_natCast]
  · rw [← hij.start_natCast, ← hij.stop_natCast, hij.bytes]
  · intro m hm
    rw [← hij.start_natCast]
    exact (hpairwise.1 m hm).start_lt

end LaidOut

end Passage

namespace Lexicon

/-- **Reading a text has exactly one of three outcomes.** -/
theorem read_outcomes (lex : Lexicon) (threshold : Level) (text : String) :
    (lex.ReadsUngrammatical threshold text ∨ lex.ReadsTree threshold text ∨
      lex.ReadsUnknown threshold text) ∧
    ¬ (lex.ReadsUngrammatical threshold text ∧ lex.ReadsTree threshold text) ∧
    ¬ (lex.ReadsUngrammatical threshold text ∧ lex.ReadsUnknown threshold text) ∧
    ¬ (lex.ReadsTree threshold text ∧ lex.ReadsUnknown threshold text) := by
  refine ⟨?_, ?_, ?_, ?_⟩
  · cases ht : Tree.ofText text with
    | error e =>
      have hread : ∀ (lex : Lexicon) (threshold : Level),
          (lex.read threshold text).value = .error (.ungrammatical e) := by
        intro lex threshold
        rw [value_read, ht]
      exact .inl ⟨e, ht, hread lex threshold, hread⟩
    | ok t =>
      -- the word that is found first is the leftmost, for the tree is one of a passage
      right
      have hread := value_read lex threshold text
      obtain ⟨p, hp, rfl⟩ := Tree.ofText_eq_ok_iff.mp ht
      obtain ⟨h, -⟩ := Passage.laidOut_of_ofText hp
      simp only [ht, firstUnknown?_eq_head? lex _ Passage.children_eq_nil] at hread
      cases hn : lex.unlisted (p.toTree (.of text.toList)) with
      | nil =>
        rw [hn] at hread
        exact .inl ⟨_, ht, (unlisted_eq_nil_iff ..).mp hn, hread⟩
      | cons n rest =>
        rw [hn] at hread
        obtain ⟨s, e, hspan, hbytes, hrest⟩ := h.unlisted_eq_cons hn
        have hvalue : (lex.read threshold text).value =
            .error (.unknownWord { word := n.text, span := (s, e) }) := by
          rw [hread, ← hspan]
          rfl
        exact .inr ⟨_, n, rest, s, e, ht, hn, hvalue, hspan, hbytes, hrest⟩
  · rintro ⟨⟨e, he, -⟩, t, ht, -⟩
    rw [he] at ht
    cases ht
  · rintro ⟨⟨e, he, -⟩, t, n, rest, s, e', ht, -⟩
    rw [he] at ht
    cases ht
  · rintro ⟨⟨t, -, -, ht⟩, t', n, rest, s, e, -, -, he, -⟩
    rw [he] at ht
    cases ht

end Lexicon

end Lojban
