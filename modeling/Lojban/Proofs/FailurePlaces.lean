import Lojban.Proofs.ErrorPlaces
import Lojban.Proofs.JoinedTexts
import Lojban.Proofs.Outcomes

/-!
# Where a text is refused

A failure to read a text with a lexicon has a span if it names a token, and then the span tells
where in the text the token stands (`Failure.StandsFor`). Nothing in front of it takes more than one
byte a character, and it has only such characters itself, unless it is a stray one
(`Failure.NarrowAt`): a text with a tree is made of gaps, words and marks throughout, and any other
is up to its fault.

Main result: `Lexicon.narrowAt_of_read`.
-/

namespace Lojban

open Text Utf8

/-! ## Specification -/

namespace Failure

/-- The token that the failure `f` names is made of the characters of `text` from the index `i` to
the index `j`, and the span of `f` is that of their bytes. -/
structure StandsFor (text : String) (f : Failure) (i j : ℕ) : Prop where
  lt : i < j
  le : j ≤ text.toList.length
  token_eq : f.token = some (String.ofList (slice text.toList i j))
  span_eq : f.span =
    some ((byteLength (text.toList.take i) : ℤ), (byteLength (text.toList.take j) : ℤ))

/-- Every character in front of the token of `f` is one of ASCII, and so are those of the token
itself, unless it is a single character that is no part of any text with a tree. -/
structure NarrowAt (text : String) (f : Failure) (i j : ℕ) : Prop where
  standsFor : f.StandsFor text i j
  front : ∀ c ∈ text.toList.take i, isAscii c = true
  token : (∀ c ∈ slice text.toList i j, isAscii c = true) ∨ j = i + 1 ∧ ∃ e, f = .ungrammatical e

end Failure

/-! ## Spans in the text -/

namespace Failure

variable {text : String} {f : Failure} {i j k l : ℕ}

/-- The span tells which characters the token is made of. -/
theorem StandsFor.unique (h : f.StandsFor text i j) (h' : f.StandsFor text k l) :
    k = i ∧ l = j := by
  obtain ⟨hstart, hstop⟩ := Prod.mk.inj (Option.some.inj (h'.span_eq.symm.trans h.span_eq))
  constructor
  · apply byteLength_take_inj (h'.lt.le.trans h'.le) (h.lt.le.trans h.le)
    exact Int.natCast_inj.mp hstart
  · apply byteLength_take_inj h'.le h.le
    exact Int.natCast_inj.mp hstop

theorem StandsFor.takesUp {token : String} {span : ℤ × ℤ} (h : f.StandsFor text i j)
    (htoken : f.token = some token) (hspan : f.span = some span) :
    TakesUp text.toList token span := by
  obtain rfl := Option.some.inj (htoken.symm.trans h.token_eq)
  obtain rfl := Option.some.inj (hspan.symm.trans h.span_eq)
  exact ⟨i, j, h.lt.le, h.le, (String.toList_ofList ..).symm, rfl⟩

/-- In front of the token there are as many bytes as characters. -/
theorem NarrowAt.span_eq (h : f.NarrowAt text i j) :
    f.span = some ((i : ℤ), ((i + byteLength (slice text.toList i j) : ℕ) : ℤ)) := by
  have hle := h.standsFor.lt.le.trans h.standsFor.le
  have hfront : byteLength (text.toList.take i) = i := by
    rw [byteLength_of_ascii (List.all_eq_true.mpr h.front), List.length_take, min_eq_left hle]
  rw [h.standsFor.span_eq, ← take_append_slice _ h.standsFor.lt.le, byteLength_append, hfront]

end Failure

namespace Tree

variable {text : String} {t n : Tree}

theorem StandsFor.takesUp {i j : ℕ} (h : n.StandsFor text i j) :
    TakesUp text.toList n.text n.span := by
  refine ⟨i, j, h.lt.le, h.le, ?_, Prod.ext h.start_natCast h.stop_natCast⟩
  rw [h.text_eq, String.toList_ofList]

theorem standsFor_of_ofText (ht : Tree.ofText text = .ok t) (hn : n ∈ t.walk) :
    ∃ i j, n.StandsFor text i j := by
  obtain ⟨p, hp, rfl⟩ := Tree.ofText_eq_ok_iff.mp ht
  obtain ⟨h, -⟩ := Passage.laidOut_of_ofText hp
  exact h.standsFor_node hn

end Tree

/-! ## Texts without a tree -/

/-- The token that a fault names has letters of ASCII, or it is one character. -/
theorem Fault.isAscii_or_length_eq_one {f : Fault} {token : String} (h : f.token? = some token) :
    (∀ c ∈ token.toList, isAscii c = true) ∨ token.toList.length = 1 := by
  cases f with
  | missingWord before => cases h
  | misplacedMark i before =>
    left
    obtain rfl := Option.some.inj h
    simp [isAscii]
  | strayChar i c before =>
    right
    obtain rfl := Option.some.inj h
    simp

theorem Fault.Cuts.narrowAt {text : String} {cs ds : List Char} {f : Fault} {token : String}
    (h : f.Cuts text.toList cs ds) (htoken : f.token? = some token) :
    (Failure.ungrammatical (.ofFault text.toList f)).NarrowAt text cs.length
      (cs.length + token.toList.length) := by
  have hfinds := h.finds
  unfold Fault.Finds at hfinds
  rw [htoken] at hfinds
  obtain ⟨hne, es, rfl⟩ := hfinds
  have hslice : slice text.toList cs.length (cs.length + token.toList.length) = token.toList := by
    rw [h.eq_append, slice_append_middle]
  have htake : text.toList.take (cs.length + token.toList.length) = cs ++ token.toList := by
    rw [h.eq_append, List.take_length_add_append, List.take_left]
  constructor
  case standsFor =>
    have hpos : 0 < token.toList.length := List.length_pos_iff.mpr (by simpa using hne)
    have hlength := congrArg List.length h.eq_append
    simp only [List.length_append] at hlength
    refine ⟨by omega, by omega, ?_, ?_⟩
    · rw [hslice, String.ofList_toList]
      exact htoken
    · rw [h.take_eq, htake, byteLength_append, h.byteLength_eq]
      exact (h.span_eq htoken).2.1
  case front =>
    rw [h.take_eq]
    exact h.ascii
  case token =>
    rw [hslice]
    rcases Fault.isAscii_or_length_eq_one htoken with hascii | hone
    · exact .inl hascii
    · exact .inr ⟨by rw [hone], _, rfl⟩

/-- An error with a span names a token. -/
theorem SyntaxError.narrowAt_of_ofText {text : String} {e : SyntaxError} {span : ℤ × ℤ}
    (he : Tree.ofText text = .error e) (hspan : e.span = some span) :
    ∃ i j, (Failure.ungrammatical e).NarrowAt text i j := by
  obtain ⟨f, hf, rfl⟩ := Tree.ofText_eq_error_iff.mp he
  obtain ⟨cs, ds, hcuts⟩ := Passage.exists_cuts hf
  cases htoken : f.token? with
  | none =>
    have hnone := (hcuts.placedAt.noToken htoken).1
    rw [hnone] at hspan
    cases hspan
  | some token => exact ⟨_, _, hcuts.narrowAt htoken⟩

/-! ## Texts with a tree -/

/-- A text that has a tree is made of characters of ASCII. -/
theorem Tree.isAscii_of_ofText {text : String} {t : Tree} (ht : Tree.ofText text = .ok t) :
    ∀ c ∈ text.toList, isAscii c = true := by
  obtain ⟨p, hp, rfl⟩ := Tree.ofText_eq_ok_iff.mp ht
  exact (Token.scans_scan 0 text.toList).isAscii (Passage.stray_not_mem_of_ofTokens hp)

/-- The first unknown word is a node of the tree. -/
theorem Lexicon.firstUnknown?_mem_walk {lex : Lexicon} {text : String} {t n : Tree}
    (ht : Tree.ofText text = .ok t) (hn : t.firstUnknown? lex.isKnown = some n) :
    n ∈ t.walk := by
  obtain ⟨p, -, rfl⟩ := Tree.ofText_eq_ok_iff.mp ht
  rw [lex.firstUnknown?_eq_head? _ Passage.children_eq_nil] at hn
  exact List.mem_of_mem_filter (List.mem_of_mem_head? hn)

theorem UnknownWord.narrowAt_of_ofText {lex : Lexicon} {text : String} {t n : Tree}
    (ht : Tree.ofText text = .ok t) (hn : t.firstUnknown? lex.isKnown = some n) :
    ∃ i j, (Failure.unknownWord { word := n.text, span := n.span }).NarrowAt text i j := by
  have hascii := Tree.isAscii_of_ofText ht
  obtain ⟨i, j, hij⟩ := Tree.standsFor_of_ofText ht (Lexicon.firstUnknown?_mem_walk ht hn)
  refine ⟨i, j, ⟨hij.lt, hij.le, congrArg some hij.text_eq, ?_⟩, ?_, .inl ?_⟩
  · exact congrArg some (Prod.ext hij.start_natCast hij.stop_natCast)
  · exact fun c hc => hascii c (List.mem_of_mem_take hc)
  · exact fun c hc => hascii c (List.mem_of_mem_drop (List.mem_of_mem_take hc))

/-! ## All texts -/

/-- **A failure with a span names a token of the text,** in front of which every character takes one
byte. -/
theorem Lexicon.narrowAt_of_read {lex : Lexicon} {threshold : Level} {text : String} {f : Failure}
    {span : ℤ × ℤ} (hf : (lex.read threshold text).value = .error f) (hspan : f.span = some span) :
    ∃ i j, f.NarrowAt text i j := by
  rcases Lexicon.cases_of_read_error hf with ⟨e, he, rfl⟩ | ⟨t, n, ht, hn, rfl⟩
  · exact SyntaxError.narrowAt_of_ofText he hspan
  · exact UnknownWord.narrowAt_of_ofText ht hn

end Lojban
