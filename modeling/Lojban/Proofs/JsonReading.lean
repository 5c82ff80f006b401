import Mathlib.Tactic
import Lojban.Json

/-!
# Reading JSON documents

A reader for the text of documents, in two steps: `tokens?` splits a text into tokens, whatever
white space stands between them and however its strings are escaped, and `ofTokens?` puts the tokens
together, one at a time, with the lists and records that are open around them. A key that a record
repeats keeps its first place and has its last value. Numbers are whole, and there are no truth
values: documents here have no others.

Main result: `decode?_render`. The text that a document is written as reads as that document, if no
record in it repeats a key.
-/

namespace Lojban

namespace Json

/-! ## Tokens of a text -/

/-- What the text of a document is made of. -/
inductive Token where
  | openList
  | closeList
  | openRecord
  | closeRecord
  | comma
  | colon
  | null
  | number (n : ℤ)
  | text (s : String)
deriving DecidableEq

/-- The white space between tokens. -/
def isSpace (c : Char) : Bool :=
  c = ' ' || c = '\t' || c = '\n' || c = '\r'

/-- The tokens that are a single character. -/
def mark? (c : Char) : Option Token :=
  if c = '[' then some .openList
  else if c = ']' then some .closeList
  else if c = '\x7b' then some .openRecord
  else if c = '\x7d' then some .closeRecord
  else if c = ',' then some .comma
  else if c = ':' then some .colon
  else none

/-- The value of a hexadecimal digit. -/
def hexDigit? (c : Char) : Option ℕ :=
  if c.isDigit then some (c.toNat - '0'.toNat)
  else if 'a' ≤ c ∧ c ≤ 'f' then some (c.toNat - 'a'.toNat + 10)
  else if 'A' ≤ c ∧ c ≤ 'F' then some (c.toNat - 'A'.toNat + 10)
  else none

/-- The number that four hexadecimal digits stand for, and what is behind them. -/
def unit? (cs : List Char) : Option (ℕ × List Char) :=
  if cs.length < 4 then none
  else
    ((cs.take 4).foldlM (fun n d => (hexDigit? d).map (16 * n + ·)) 0).map (·, cs.drop 4)

/-- The character whose number stands behind `\u`, and what is behind that. A character beyond the
first plane has two numbers, the halves of a surrogate pair; one half alone stands for nothing. -/
def numberedChar? (cs : List Char) : Option (Char × List Char) := do
  let (high, rest) ← unit? cs
  if high < 0xD800 ∨ 0xDFFF < high then return (Char.ofNat high, rest)
  else if high < 0xDC00 ∧ rest.take 2 = ['\\', 'u'] then
    let (low, rest) ← unit? (rest.drop 2)
    if 0xDC00 ≤ low ∧ low ≤ 0xDFFF then
      return (Char.ofNat (0x10000 + 0x400 * (high - 0xD800) + (low - 0xDC00)), rest)
    else none
  else none

/-- The character that a letter behind a backslash stands for. -/
def namedChar? (c : Char) : Option Char :=
  if c = '"' ∨ c = '\\' ∨ c = '/' then some c
  else if c = 'b' then some '\x08'
  else if c = 'f' then some '\x0c'
  else if c = 'n' then some '\n'
  else if c = 'r' then some '\r'
  else if c = 't' then some '\t'
  else none

/-- The first character of a string, and what is behind it. Control characters must be escaped. -/
def stringChar? : List Char → Option (Char × List Char)
  | [] => none
  | '\\' :: 'u' :: cs => numberedChar? cs
  | '\\' :: cs => cs.head?.bind fun c => (namedChar? c).map (·, cs.tail)
  | c :: cs => if c = '"' ∨ c.toNat < 0x20 then none else some (c, cs)

theorem length_of_unit? {cs rest : List Char} {n : ℕ} (h : unit? cs = some (n, rest)) :
    rest.length < cs.length := by
  unfold unit? at h
  split_ifs at h
  obtain ⟨_, -, heq⟩ := Option.map_eq_some_iff.mp h
  rw [← (Prod.mk.inj heq).2, List.length_drop]
  omega

theorem length_of_numberedChar? {cs rest : List Char} {c : Char}
    (h : numberedChar? cs = some (c, rest)) : rest.length < cs.length := by
  obtain ⟨⟨high, behind⟩, hhigh, h⟩ := Option.bind_eq_some_iff.mp h
  have hbehind := length_of_unit? hhigh
  dsimp only at h
  split_ifs at h
  · rw [← (Prod.mk.inj (Option.some.inj h)).2]
    exact hbehind
  · obtain ⟨⟨low, last⟩, hlow, h⟩ := Option.bind_eq_some_iff.mp h
    have hlast := length_of_unit? hlow
    rw [List.length_drop] at hlast
    dsimp only at h
    split_ifs at h
    rw [← (Prod.mk.inj (Option.some.inj h)).2]
    omega

theorem length_of_stringChar? {cs rest : List Char} {c : Char}
    (h : stringChar? cs = some (c, rest)) : rest.length < cs.length := by
  unfold stringChar? at h
  split at h
  · cases h
  · have := length_of_numberedChar? h
    simp only [List.length_cons]
    omega
  · obtain ⟨e, -, h⟩ := Option.bind_eq_some_iff.mp h
    obtain ⟨_, -, h⟩ := Option.map_eq_some_iff.mp h
    rw [← (Prod.mk.inj h).2, List.length_tail, List.length_cons]
    omega
  · split_ifs at h
    rw [← (Prod.mk.inj (Option.some.inj h)).2, List.length_cons]
    omega

/-- The characters of a string up to the quote behind it, and what is behind that. -/
def string? (cs : List Char) : Option (List Char × List Char) :=
  if cs.head? = some '"' then some ([], cs.tail)
  else
    match _h : stringChar? cs with
    | none => none
    | some (c, rest) => (string? rest).map fun (s, behind) => (c :: s, behind)
termination_by cs.length
decreasing_by exact length_of_stringChar? _h

/-- The number at the front of a text, and what is behind it. It does not start with a zero, unless
it is zero. -/
def natural? (cs : List Char) : Option (ℕ × List Char) :=
  let digits := cs.takeWhile Char.isDigit
  if digits = [] ∨ digits.head? = some '0' ∧ digits ≠ ['0'] then none
  else some (Nat.ofDigitChars 10 digits 0, cs.dropWhile Char.isDigit)

/-- The token at the front of a text, and what is behind it. -/
def token? : List Char → Option (Token × List Char)
  | [] => none
  | c :: cs =>
    match mark? c with
    | some t => some (t, cs)
    | none =>
      if c = '"' then (string? cs).map fun (s, rest) => (.text (String.ofList s), rest)
      else if c = '-' then (natural? cs).map fun (n, rest) => (.number (-n), rest)
      else if c = 'n' then
        if "ull".toList.isPrefixOf cs then some (.null, cs.drop 3) else none
      else (natural? (c :: cs)).map fun (n, rest) => (.number n, rest)

theorem length_of_string? {cs s rest : List Char} (h : string? cs = some (s, rest)) :
    rest.length < cs.length := by
  induction cs using string?.induct generalizing s rest with
  | case1 cs hquote =>
    rw [string?, if_pos hquote] at h
    obtain ⟨-, rfl⟩ := Prod.mk.inj (Option.some.inj h)
    cases cs with
    | nil => cases hquote
    | cons c cs => simp
  | case2 cs hquote hnone =>
    rw [string?, if_neg hquote] at h
    split at h
    · cases h
    · next hsome => rw [hnone] at hsome; cases hsome
  | case3 cs hquote c behind hchar ih =>
    rw [string?, if_neg hquote] at h
    split at h
    · cases h
    · next hsome =>
      rw [hchar] at hsome
      cases hsome
      obtain ⟨⟨s', rest'⟩, hrest, heq⟩ := Option.map_eq_some_iff.mp h
      obtain ⟨-, rfl⟩ := Prod.mk.inj heq
      exact (ih hrest).trans (length_of_stringChar? hchar)

theorem length_of_natural? {cs rest : List Char} {n : ℕ} (h : natural? cs = some (n, rest)) :
    rest.length < cs.length := by
  unfold natural? at h
  dsimp only at h
  split_ifs at h with hdigits
  rw [not_or] at hdigits
  have hsplit : (cs.takeWhile Char.isDigit ++ cs.dropWhile Char.isDigit).length = cs.length :=
    congrArg List.length List.takeWhile_append_dropWhile
  have hpos := List.length_pos_of_ne_nil hdigits.1
  rw [List.length_append] at hsplit
  rw [← (Prod.mk.inj (Option.some.inj h)).2]
  omega

theorem length_of_token? {cs rest : List Char} {t : Token} (h : token? cs = some (t, rest)) :
    rest.length < cs.length := by
  unfold token? at h
  split at h
  · cases h
  split at h
  · rw [← (Prod.mk.inj (Option.some.inj h)).2]
    simp
  split_ifs at h
  · obtain ⟨_, hstring, heq⟩ := Option.map_eq_some_iff.mp h
    rw [← (Prod.mk.inj heq).2]
    exact (length_of_string? hstring).trans (Nat.lt_succ_self _)
  · obtain ⟨_, hnatural, heq⟩ := Option.map_eq_some_iff.mp h
    rw [← (Prod.mk.inj heq).2]
    exact (length_of_natural? hnatural).trans (Nat.lt_succ_self _)
  · rw [← (Prod.mk.inj (Option.some.inj h)).2, List.length_drop, List.length_cons]
    omega
  · obtain ⟨_, hnatural, heq⟩ := Option.map_eq_some_iff.mp h
    rw [← (Prod.mk.inj heq).2]
    exact length_of_natural? hnatural

/-- The tokens of a text, if it consists of tokens and white space. -/
def tokens? : List Char → Option (List Token)
  | [] => some []
  | c :: cs =>
    if isSpace c then tokens? cs
    else
      match _h : token? (c :: cs) with
      | none => none
      | some (t, rest) => (tokens? rest).map (t :: ·)
termination_by cs => cs.length
decreasing_by
  · simp
  · exact length_of_token? _h

/-! ## Documents of tokens -/

/-- A list or a record that is open, with what it holds so far. -/
inductive Frame where
  | list (items : List Json)
  /-- The value of `key` comes next. -/
  | record (fields : List (String × Json)) (key : String)

/-- What has been read, within the lists and records `outer`, the innermost first. -/
inductive Reader where
  /-- A value comes next. -/
  | value (outer : List Frame)
  /-- A list has been opened. -/
  | listOpened (outer : List Frame)
  /-- A record has been opened. -/
  | recordOpened (outer : List Frame)
  /-- A key comes next. -/
  | key (fields : List (String × Json)) (outer : List Frame)
  /-- A colon comes next. -/
  | colon (fields : List (String × Json)) (key : String) (outer : List Frame)
  /-- A value has been read. -/
  | behind (j : Json) (outer : List Frame)

/-- Gives `key` a value; a key keeps the place it had. -/
def putField (fields : List (String × Json)) (key : String) (j : Json) : List (String × Json) :=
  if key ∈ fields.map Prod.fst then fields.map fun f => if f.1 = key then (key, j) else f
  else fields ++ [(key, j)]

namespace Reader

/-- The first token of a value. -/
def startValue (outer : List Frame) : Token → Option Reader
  | .null => some (.behind .null outer)
  | .number n => some (.behind (.number n) outer)
  | .text s => some (.behind (.text s) outer)
  | .openList => some (.listOpened outer)
  | .openRecord => some (.recordOpened outer)
  | _ => none

/-- Reads one more token. -/
def step : Reader → Token → Option Reader
  | .value outer, t => startValue outer t
  | .listOpened outer, .closeList => some (.behind (.list []) outer)
  | .listOpened outer, t => startValue (.list [] :: outer) t
  | .recordOpened outer, .closeRecord => some (.behind (.record []) outer)
  | .recordOpened outer, .text k => some (.colon [] k outer)
  | .key fields outer, .text k => some (.colon fields k outer)
  | .colon fields k outer, .colon => some (.value (.record fields k :: outer))
  | .behind j (.list items :: outer), .comma => some (.value (.list (items ++ [j]) :: outer))
  | .behind j (.list items :: outer), .closeList => some (.behind (.list (items ++ [j])) outer)
  | .behind j (.record fields k :: outer), .comma => some (.key (putField fields k j) outer)
  | .behind j (.record fields k :: outer), .closeRecord =>
    some (.behind (.record (putField fields k j)) outer)
  | _, _ => none

/-- Reads tokens. -/
def run (r : Reader) (ts : List Token) : Option Reader :=
  ts.foldlM step r

end Reader

/-- The document that tokens make up. -/
def ofTokens? (ts : List Token) : Option Json :=
  match Reader.run (.value []) ts with
  | some (.behind j []) => some j
  | _ => none

/-- The document that a text stands for. -/
def decode? (s : String) : Option Json :=
  (tokens? s.toList).bind ofTokens?

/-! ## Tokens of a document -/

mutual

/-- The tokens that a document is written with. -/
def toTokens : Json → List Token
  | null => [.null]
  | number n => [.number n]
  | text s => [.text s]
  | list items => .openList :: itemTokens items ++ [.closeList]
  | record fields => .openRecord :: fieldTokens fields ++ [.closeRecord]

/-- The tokens of the elements of a list. -/
def itemTokens : List Json → List Token
  | [] => []
  | [j] => toTokens j
  | j :: js => toTokens j ++ .comma :: itemTokens js

/-- The tokens of the fields of a record. -/
def fieldTokens : List (String × Json) → List Token
  | [] => []
  | [(key, j)] => .text key :: .colon :: toTokens j
  | (key, j) :: fields => .text key :: .colon :: toTokens j ++ .comma :: fieldTokens fields

end

mutual

/-- No record repeats a key. -/
def KeysDiffer : Json → Prop
  | null | number _ | text _ => True
  | list items => KeysDifferAll items
  | record fields => (fields.map Prod.fst).Nodup ∧ KeysDifferFields fields

/-- In no element is there a record that repeats a key. -/
def KeysDifferAll : List Json → Prop
  | [] => True
  | j :: js => KeysDiffer j ∧ KeysDifferAll js

/-- In no field is there a record that repeats a key. -/
def KeysDifferFields : List (String × Json) → Prop
  | [] => True
  | (_, j) :: fields => KeysDiffer j ∧ KeysDifferFields fields

end

/-! ## Reading tokens -/

theorem hexDigits_spec : ∀ n < 32, (Text.hexDigits 4 n).length = 4 ∧
    (Text.hexDigits 4 n).foldlM (fun n d => (hexDigit? d).map (16 * n + ·)) 0 = some n := by
  decide

theorem unit?_hexDigits {n : ℕ} (h : n < 32) (rest : List Char) :
    unit? (Text.hexDigits 4 n ++ rest) = some (n, rest) := by
  obtain ⟨hlength, hvalue⟩ := hexDigits_spec n h
  unfold unit?
  rw [if_neg (by rw [List.length_append]; omega), List.take_left' hlength, List.drop_left' hlength,
    hvalue]
  rfl

theorem numberedChar?_hexDigits {c : Char} (h : c.toNat < 32) (rest : List Char) :
    numberedChar? (Text.hexDigits 4 c.toNat ++ rest) = some (c, rest) := by
  unfold numberedChar?
  rw [unit?_hexDigits h]
  show (if c.toNat < 0xD800 ∨ 0xDFFF < c.toNat then some (Char.ofNat c.toNat, rest) else _) = _
  rw [if_pos (by omega), Char.ofNat_toNat]

/-- A character reads as it was escaped. -/
theorem stringChar?_escapedChar (c : Char) (rest : List Char) :
    stringChar? (escapedChar c ++ rest) = some (c, rest) := by
  unfold escapedChar
  split_ifs with hsame hn hr ht hf hb hcontrol
  · rcases hsame with rfl | rfl <;> rfl
  · subst hn; rfl
  · subst hr; rfl
  · subst ht; rfl
  · subst hf; rfl
  · subst hb; rfl
  · exact numberedChar?_hexDigits hcontrol rest
  · rw [not_or] at hsame
    show stringChar? (c :: rest) = _
    unfold stringChar?
    split <;> simp_all

theorem head?_escapedChar_ne (c : Char) (rest : List Char) :
    (escapedChar c ++ rest).head? ≠ some '"' := by
  unfold escapedChar
  split_ifs with hsame
  all_goals simp only [List.cons_append, List.nil_append, List.head?_cons, ne_eq, Option.some.injEq]
  any_goals decide
  rw [not_or] at hsame
  exact hsame.1

/-- A string reads as what it was written for. -/
theorem string?_flatMap_escapedChar (s rest : List Char) :
    string? (s.flatMap escapedChar ++ '"' :: rest) = some (s, rest) := by
  induction s with
  | nil =>
    rw [string?]
    rfl
  | cons c s ih =>
    rw [List.flatMap_cons, List.append_assoc, string?, if_neg (head?_escapedChar_ne c _)]
    split
    · next hchar => rw [stringChar?_escapedChar] at hchar; cases hchar
    · next hchar =>
      rw [stringChar?_escapedChar] at hchar
      cases hchar
      rw [ih]
      rfl

/-- Only zero is written with a zero in front. -/
theorem eq_zero_of_head?_toDigits {n : ℕ} (h : (Nat.toDigits 10 n).head? = some '0') : n = 0 := by
  induction n using Nat.strong_induction_on with
  | _ n ih =>
    by_cases hlt : n < 10
    · rw [Nat.toDigits_of_lt_base hlt] at h
      interval_cases n
      · rfl
      all_goals cases h
    · rw [Nat.toDigits_of_base_le (by decide) (by omega), List.head?_append_of_ne_nil _
        Nat.toDigits_ne_nil] at h
      have := ih (n / 10) (by omega) h
      omega

/-- What comes next is no digit. -/
def NoDigit (rest : List Char) : Prop :=
  ∀ c ∈ rest.head?, c.isDigit = false

theorem natural?_toDigits (n : ℕ) {rest : List Char} (h : NoDigit rest) :
    natural? (Nat.toDigits 10 n ++ rest) = some (n, rest) := by
  have hdigits : ∀ c ∈ Nat.toDigits 10 n, c.isDigit = true :=
    fun c hc => Nat.isDigit_of_mem_toDigits (by decide) (by decide) hc
  have hrest : rest.takeWhile Char.isDigit = [] ∧ rest.dropWhile Char.isDigit = rest := by
    cases rest with
    | nil => exact ⟨rfl, rfl⟩
    | cons c cs =>
      have hc : c.isDigit = false := h c rfl
      simp [hc]
  have hlead : ¬ (Nat.toDigits 10 n = [] ∨
      (Nat.toDigits 10 n).head? = some '0' ∧ Nat.toDigits 10 n ≠ ['0']) := by
    rintro (hnil | ⟨hzero, hne⟩)
    · exact Nat.toDigits_ne_nil hnil
    · apply hne
      rw [eq_zero_of_head?_toDigits hzero]
      rfl
  unfold natural?
  rw [List.takeWhile_append_of_pos hdigits, List.dropWhile_append_of_pos hdigits, hrest.1, hrest.2,
    List.append_nil]
  dsimp only
  rw [if_neg hlead, Nat.ofDigitChars_ten_toDigits]

theorem token?_text (s : String) (rest : List Char) :
    token? (stringText s ++ rest) = some (.text s, rest) := by
  show (string? (s.toList.flatMap escapedChar ++ ['"'] ++ rest)).map _ = _
  rw [List.append_assoc, List.singleton_append, string?_flatMap_escapedChar]
  show some (Token.text (String.ofList s.toList), rest) = _
  rw [String.ofList_toList]

theorem token?_null (rest : List Char) : token? ("null".toList ++ rest) = some (.null, rest) := rfl

/-- A whole number is written in decimal digits, below zero with a minus sign in front. -/
theorem toList_toString_int (n : ℤ) :
    (∃ m : ℕ, n = m ∧ (toString n).toList = Nat.toDigits 10 m) ∨
      ∃ m : ℕ, n = -m ∧ (toString n).toList = '-' :: Nat.toDigits 10 m := by
  cases n with
  | ofNat m => exact .inl ⟨m, rfl, Nat.toList_repr⟩
  | negSucc m =>
    refine .inr ⟨m + 1, rfl, ?_⟩
    show ("-" ++ (m + 1).repr).toList = _
    rw [String.toList_append, Nat.toList_repr]
    rfl

theorem mark?_of_isDigit {c : Char} (h : c.isDigit = true) : mark? c = none := by
  unfold mark?
  split_ifs <;> first | rfl | (subst_vars; cases h)

/-- A number reads as it was written, if no digit follows. -/
theorem token?_number (n : ℤ) {rest : List Char} (h : NoDigit rest) :
    token? ((toString n).toList ++ rest) = some (.number n, rest) := by
  obtain ⟨m, rfl, hdigits⟩ | ⟨m, rfl, hdigits⟩ := toList_toString_int n
  · have hnatural := natural?_toDigits m h
    rw [hdigits]
    cases hm : Nat.toDigits 10 m with
    | nil => exact absurd hm Nat.toDigits_ne_nil
    | cons c cs =>
      have hc : c.isDigit = true :=
        Nat.isDigit_of_mem_toDigits (b := 10) (n := m) (by decide) (by decide) (by simp [hm])
      rw [hm] at hnatural
      unfold token?
      simp only [List.cons_append, mark?_of_isDigit hc] at hnatural ⊢
      rw [if_neg, if_neg, if_neg, hnatural]
      · rfl
      all_goals
        rintro rfl
        cases hc
  · rw [hdigits]
    show (natural? (Nat.toDigits 10 m ++ rest)).map _ = _
    rw [natural?_toDigits m h]
    rfl

/-! ## Reading the text of a document -/

theorem token?_of_isSpace {c : Char} (h : isSpace c = true) (cs : List Char) :
    token? (c :: cs) = none := by
  simp only [isSpace, Bool.or_eq_true, decide_eq_true_eq] at h
  rcases h with ((rfl | rfl) | rfl) | rfl <;> rfl

theorem tokens?_of_token? {cs rest : List Char} {t : Token} (h : token? cs = some (t, rest)) :
    tokens? cs = (tokens? rest).map (t :: ·) := by
  cases cs with
  | nil => cases h
  | cons c cs =>
    have hspace : ¬ isSpace c = true := by
      intro hspace
      rw [token?_of_isSpace hspace] at h
      cases h
    rw [tokens?, if_neg hspace]
    split
    · next hnone => rw [h] at hnone; cases hnone
    · next hsome =>
      rw [h] at hsome
      cases hsome
      rfl

theorem tokens?_of_isSpace {c : Char} (h : isSpace c = true) (cs : List Char) :
    tokens? (c :: cs) = tokens? cs := by
  rw [tokens?, if_pos h]

theorem tokens?_of_mark? {c : Char} {t : Token} (h : mark? c = some t) (cs : List Char) :
    tokens? (c :: cs) = (tokens? cs).map (t :: ·) := by
  apply tokens?_of_token?
  unfold token?
  simp only [h]

/-- Line starts are passed over. -/
theorem tokens?_lineStart (depth : ℕ) (cs : List Char) :
    tokens? (lineStart depth ++ cs) = tokens? cs := by
  unfold lineStart
  rw [List.cons_append, tokens?_of_isSpace rfl]
  induction 2 * depth with
  | zero => rfl
  | succ n ih => rw [List.replicate_succ, List.cons_append, tokens?_of_isSpace rfl, ih]

theorem noDigit_cons {c : Char} (h : c.isDigit = false) (cs : List Char) : NoDigit (c :: cs) := by
  intro d hd
  cases hd
  exact h

theorem noDigit_lineStart (depth : ℕ) (cs : List Char) : NoDigit (lineStart depth ++ cs) :=
  noDigit_cons rfl _

mutual

/-- The text of a document has its tokens, whatever depth it is indented to. -/
theorem tokens?_chars (depth : ℕ) (j : Json) {rest : List Char} (h : NoDigit rest) :
    tokens? (chars depth j ++ rest) = (tokens? rest).map (toTokens j ++ ·) := by
  cases j with
  | null =>
    rw [chars, toTokens]
    exact tokens?_of_token? (token?_null rest)
  | number n =>
    rw [chars, toTokens]
    exact tokens?_of_token? (token?_number n h)
  | text s =>
    rw [chars, toTokens]
    exact tokens?_of_token? (token?_text s rest)
  | list items =>
    cases items with
    | nil =>
      rw [chars, toTokens, itemTokens, List.cons_append, tokens?_of_mark? rfl, List.cons_append,
        tokens?_of_mark? rfl, Option.map_map]
      rfl
    | cons x xs =>
      have hitems := tokens?_itemChars (depth + 1) (x :: xs)
        (noDigit_lineStart depth (']' :: rest))
      rw [chars, toTokens]
      simp only [List.cons_append, List.append_assoc, List.nil_append]
      rw [tokens?_of_mark? rfl, tokens?_lineStart, hitems, tokens?_lineStart, tokens?_of_mark? rfl]
      simp only [Option.map_map]
      rfl
  | record fields =>
    cases fields with
    | nil =>
      rw [chars, toTokens, fieldTokens, List.cons_append, tokens?_of_mark? rfl, List.cons_append,
        tokens?_of_mark? rfl, Option.map_map]
      rfl
    | cons f fs =>
      have hfields := tokens?_fieldChars (depth + 1) (f :: fs)
        (noDigit_lineStart depth ('\x7d' :: rest))
      rw [chars, toTokens]
      simp only [List.cons_append, List.append_assoc, List.nil_append]
      rw [tokens?_of_mark? rfl, tokens?_lineStart, hfields, tokens?_lineStart,
        tokens?_of_mark? rfl]
      simp only [Option.map_map]
      rfl

theorem tokens?_itemChars (depth : ℕ) (js : List Json) {rest : List Char} (h : NoDigit rest) :
    tokens? (itemChars depth js ++ rest) = (tokens? rest).map (itemTokens js ++ ·) := by
  cases js with
  | nil =>
    rw [itemChars, itemTokens]
    exact (Option.map_id' ..).symm
  | cons j js =>
    cases js with
    | nil =>
      rw [itemChars, itemTokens]
      exact tokens?_chars depth j h
    | cons j' js =>
      have hitems := tokens?_itemChars depth (j' :: js) h
      simp only [itemChars, itemTokens, List.cons_append, List.append_assoc]
      rw [tokens?_chars depth j (noDigit_cons rfl _), tokens?_of_mark? rfl, tokens?_lineStart,
        hitems]
      simp only [Option.map_map]
      rfl

theorem tokens?_fieldChars (depth : ℕ) (fields : List (String × Json)) {rest : List Char}
    (h : NoDigit rest) :
    tokens? (fieldChars depth fields ++ rest) = (tokens? rest).map (fieldTokens fields ++ ·) := by
  cases fields with
  | nil =>
    rw [fieldChars, fieldTokens]
    exact (Option.map_id' ..).symm
  | cons f fields =>
    obtain ⟨key, j⟩ := f
    cases fields with
    | nil =>
      have hvalue := tokens?_chars depth j h
      rw [fieldChars, fieldTokens]
      simp only [List.cons_append, List.append_assoc]
      rw [tokens?_of_token? (token?_text key _), tokens?_of_mark? rfl, tokens?_of_isSpace rfl,
        hvalue]
      simp only [Option.map_map]
      rfl
    | cons f' fields =>
      have hfields := tokens?_fieldChars depth (f' :: fields) h
      simp only [fieldChars, fieldTokens, List.cons_append, List.append_assoc]
      rw [tokens?_of_token? (token?_text key _), tokens?_of_mark? rfl, tokens?_of_isSpace rfl,
        tokens?_chars depth j (noDigit_cons rfl _), tokens?_of_mark? rfl, tokens?_lineStart,
        hfields]
      simp only [Option.map_map]
      rfl

end

/-! ## Putting tokens together -/

theorem putField_of_not_mem {fields : List (String × Json)} {key : String}
    (h : key ∉ fields.map Prod.fst) (j : Json) : putField fields key j = fields ++ [(key, j)] :=
  if_neg h

namespace Reader

theorem run_append (r : Reader) (ts us : List Token) :
    r.run (ts ++ us) = (r.run ts).bind (run · us) :=
  List.foldlM_append ..

theorem run_cons {r r' : Reader} {t : Token} (h : r.step t = some r') (ts : List Token) :
    r.run (t :: ts) = r'.run ts := by
  unfold run
  rw [List.foldlM_cons, h]
  rfl

/-- Behind the bracket that opens a list, the first element is read as any other. -/
theorem run_listOpened (outer : List Frame) (j : Json) (js : List Json) (ts : List Token) :
    (listOpened outer).run (itemTokens (j :: js) ++ ts) =
      (value (.list [] :: outer)).run (itemTokens (j :: js) ++ ts) := by
  cases j <;> cases js <;> simp only [itemTokens, toTokens, List.cons_append] <;> rfl

/-- Behind the bracket that opens a record, the first field is read as any other. -/
theorem run_recordOpened (outer : List Frame) (f : String × Json) (fields : List (String × Json))
    (ts : List Token) :
    (recordOpened outer).run (fieldTokens (f :: fields) ++ ts) =
      (key [] outer).run (fieldTokens (f :: fields) ++ ts) := by
  cases fields <;> simp only [fieldTokens, List.cons_append] <;> rfl

end Reader

mutual

/-- The tokens of a document are read as that document. -/
theorem run_toTokens (j : Json) (hj : j.KeysDiffer) (outer : List Frame) (ts : List Token) :
    (Reader.value outer).run (toTokens j ++ ts) = (Reader.behind j outer).run ts := by
  cases j with
  | null | number | text =>
    rw [toTokens]
    exact Reader.run_cons rfl ts
  | list items =>
    rw [toTokens, List.cons_append, List.cons_append, List.append_assoc, List.singleton_append,
      Reader.run_cons rfl]
    cases items with
    | nil =>
      rw [itemTokens]
      exact Reader.run_cons rfl ts
    | cons x xs =>
      rw [KeysDiffer] at hj
      rw [Reader.run_listOpened]
      exact run_itemTokens (x :: xs) (List.cons_ne_nil x xs) hj [] outer ts
  | record fields =>
    rw [KeysDiffer] at hj
    rw [toTokens, List.cons_append, List.cons_append, List.append_assoc, List.singleton_append,
      Reader.run_cons rfl]
    cases fields with
    | nil =>
      rw [fieldTokens]
      exact Reader.run_cons rfl ts
    | cons f fields =>
      rw [Reader.run_recordOpened]
      exact run_fieldTokens (f :: fields) (List.cons_ne_nil f fields) hj.2 [] hj.1 outer ts

/-- The tokens of elements are read as those elements, behind the ones that have been read. -/
theorem run_itemTokens (js : List Json) (hne : js ≠ []) (hjs : KeysDifferAll js)
    (before : List Json) (outer : List Frame) (ts : List Token) :
    (Reader.value (.list before :: outer)).run (itemTokens js ++ .closeList :: ts) =
      (Reader.behind (.list (before ++ js)) outer).run ts := by
  cases js with
  | nil => exact absurd rfl hne
  | cons j js =>
    rw [KeysDifferAll] at hjs
    cases js with
    | nil =>
      rw [itemTokens, run_toTokens j hjs.1]
      exact Reader.run_cons rfl ts
    | cons j' js =>
      have hitems := run_itemTokens (j' :: js) (List.cons_ne_nil j' js) hjs.2 (before ++ [j]) outer
        ts
      rw [List.append_assoc, List.singleton_append] at hitems
      simp only [itemTokens, List.cons_append, List.append_assoc]
      rw [run_toTokens j hjs.1, Reader.run_cons rfl, hitems]

/-- The tokens of fields are read as those fields, behind the ones that have been read. -/
theorem run_fieldTokens (fields : List (String × Json)) (hne : fields ≠ [])
    (hfields : KeysDifferFields fields) (before : List (String × Json))
    (hnodup : ((before ++ fields).map Prod.fst).Nodup) (outer : List Frame) (ts : List Token) :
    (Reader.key before outer).run (fieldTokens fields ++ .closeRecord :: ts) =
      (Reader.behind (.record (before ++ fields)) outer).run ts := by
  cases fields with
  | nil => exact absurd rfl hne
  | cons f fields =>
    obtain ⟨key, j⟩ := f
    rw [KeysDifferFields] at hfields
    have hput : putField before key j = before ++ [(key, j)] := by
      apply putField_of_not_mem
      rw [List.map_append, List.nodup_append] at hnodup
      intro hmem
      exact hnodup.2.2 key hmem key (by simp) rfl
    cases fields with
    | nil =>
      rw [fieldTokens, List.cons_append, List.cons_append, Reader.run_cons rfl,
        Reader.run_cons rfl, run_toTokens j hfields.1, ← hput]
      exact Reader.run_cons rfl ts
    | cons f' fields =>
      have hrest := run_fieldTokens (f' :: fields) (List.cons_ne_nil f' fields) hfields.2
        (before ++ [(key, j)]) (by rwa [List.append_assoc, List.singleton_append]) outer ts
      rw [List.append_assoc, List.singleton_append] at hrest
      simp only [fieldTokens, List.cons_append, List.append_assoc]
      rw [Reader.run_cons rfl, Reader.run_cons rfl, run_toTokens j hfields.1, Reader.run_cons rfl,
        hput, hrest]

end

/-- **Reading takes back what writing wrote,** if no record repeats a key. -/
theorem decode?_render {j : Json} (h : j.KeysDiffer) : decode? j.render = some j := by
  have hend : NoDigit [] := by
    intro c hc
    cases hc
  have htokens := tokens?_chars 0 j hend
  rw [List.append_nil, tokens?, Option.map_some, List.append_nil] at htokens
  have hrun := run_toTokens j h [] []
  rw [List.append_nil] at hrun
  unfold decode? render
  rw [String.toList_ofList, htokens, Option.bind_some, ofTokens?, hrun]
  rfl

/-- White space, escapes and the first value of a repeated key make no difference. -/
example :
    (decode? " \x7b\"a\" :[1],\t\"b\": \"\\u00e9\\ud83d\\ude00\\/\",\"a\":-20\x7d\r\n").map
      render = some (render (.record [("a", .number (-20)), ("b", .text "é😀/")])) := by
  decide +kernel

end Json

end Lojban
