import Lojban.Proofs.FailurePlaces
import Lojban.Proofs.FileInput
import Lojban.Proofs.LineEnds

/-!
# Spans and the bytes of a file

The spans that are printed for the text in a file count bytes from the first character that is no
blank, and a line feed stands for every line end. So they give bytes of the file itself once the
blanks in front are counted, unless a carriage return is left when the blanks at both ends are taken
off.

Main result: `main_file_spans`.
-/

namespace Lojban

open Text Utf8 CommandLine

/-! ## Specification -/

namespace Command

/-- The characters that an answer gives with a span: those of every node of a tree, and the token of
a failure. -/
def spansOf : Except Failure Tree → List (String × (ℤ × ℤ))
  | .ok t => t.walk.map fun n => (n.text, n.span)
  | .error f =>
    match f.token, f.span with
    | some token, some span => [(token, span)]
    | _, _ => []

/-- Behind the first `skipped` bytes, the spans of an answer give the bytes of the characters they
come with. -/
def SpansIn (bytes : List UInt8) (skipped : ℕ) (answer : Except Failure Tree) : Prop :=
  ∀ part span, (part, span) ∈ spansOf answer → ∃ i j : ℕ, span = ((i : ℤ), (j : ℤ)) ∧ i ≤ j ∧
    skipped + j ≤ bytes.length ∧ slice bytes (skipped + i) (skipped + j) = encode part.toList

end Command

/-! ## Spans in the text -/

namespace Command

theorem mem_spansOf_error {f : Failure} {part : String} {span : ℤ × ℤ} :
    (part, span) ∈ spansOf (.error f) ↔ f.token = some part ∧ f.span = some span := by
  simp only [spansOf]
  cases f.token <;> cases f.span <;> simp [eq_comm]

/-- The parts that an answer gives stand in the text where their spans say. -/
theorem takesUp_of_mem_spansOf {lex : Lexicon} {text part : String} {span : ℤ × ℤ}
    (h : (part, span) ∈ spansOf (answerOf (.ok lex) text)) : TakesUp text.toList part span := by
  cases hanswer : answerOf (.ok lex) text with
  | ok t =>
    rw [hanswer, spansOf, List.mem_map] at h
    obtain ⟨n, hn, hpart⟩ := h
    obtain ⟨rfl, rfl⟩ := Prod.mk.inj hpart
    obtain ⟨i, j, hij⟩ := Tree.standsFor_of_ofText (Lexicon.ofText_of_read hanswer) hn
    exact hij.takesUp
  | error f =>
    rw [hanswer, mem_spansOf_error] at h
    obtain ⟨htoken, hspan⟩ := h
    obtain ⟨i, j, hplace⟩ := Lexicon.narrowAt_of_read hanswer hspan
    exact hplace.standsFor.takesUp htoken hspan

/-- In a longer text, the spans count from where the text starts. -/
theorem spansIn_of_eq_append {lex : Lexicon} {text : String} {whole before behind : List Char}
    (h : whole = before ++ (text.toList ++ behind)) :
    SpansIn (encode whole) (byteLength before) (answerOf (.ok lex) text) := by
  intro part span hpart
  subst h
  exact (takesUp_of_mem_spansOf hpart).slice_append before behind

/-! ## Spans in the file -/

/-- Reading one text from a file prints the answer for what is left of its text without the blanks
around it. -/
theorem on_main_file {arguments : List String} {file : String} {format : Format} {s : Session}
    {lex : Lexicon} {content : List Char}
    (harguments : Invocation.ofArguments arguments =
      .ok ⟨false, none, some (.parse none (some file) format)⟩)
    (hlists : s.lists = .ok lex)
    (hcontent : s.disk.read (.ofString file) = .ok (encode content)) :
    let answer := answerOf (.ok lex) (String.ofList (strip (unifyLineEnds content)))
    ∃ store, (main arguments).on s = (.ok (statusOf answer),
      (s.withScreen.withStore store).withLines (shownLines format answer) (complaints answer)) := by
  have hne : file ≠ "" := by
    rintro rfl
    exact not_holdsText_empty s.disk ⟨content, hcontent⟩
  have hscreen := s.onScreen_withScreen
  obtain ⟨store, hlex⟩ := hscreen.on_lexicon_ok hlists
  have hinput := on_inputText_file hne (on_readFile (s := s.withScreen) hcontent)
  have hread : (Run.readText (String.ofList (strip (unifyLineEnds content)))).on s.withScreen =
      ((answerOf (.ok lex) (String.ofList (strip (unifyLineEnds content)))).mapError
        Trouble.failure, _) :=
    Run.on_readText_of_lexicon hlex (hscreen.store store) _
  exact ⟨store, (on_main harguments s).trans (on_parse hinput hread format)⟩

/-- **Which bytes the spans for a file give.** When one text is read from a file, what is printed is
the answer for its characters with a line feed for each line end, without the blanks around them.
The spans give bytes of these characters, behind the blanks in front, and bytes of the file as it is
if carriage returns stand only among the blanks at its two ends. -/
theorem main_file_spans {arguments : List String} {file : String} {format : Format} {s : Session}
    {lex : Lexicon} {content : List Char}
    (harguments : Invocation.ofArguments arguments =
      .ok ⟨false, none, some (.parse none (some file) format)⟩)
    (hlists : s.lists = .ok lex)
    (hcontent : s.disk.read (.ofString file) = .ok (encode content)) :
    ∃ text s', (∀ text', Unifies content text' ↔ text' = text) ∧
      let answer := answerOf (.ok lex) (String.ofList (strip text))
      (main arguments).on s = (.ok (statusOf answer), s') ∧
      s'.stdout = s.stdout ++ Run.printed (shownLines format answer) ∧
      s'.stderr = s.stderr ++ Run.printed (complaints answer) ∧
      SpansIn (encode text) (byteLength (text.takeWhile isBlank)) answer ∧
      ('\r' ∉ strip content →
        SpansIn (encode content) (byteLength (content.takeWhile isBlank)) answer) := by
  obtain ⟨store, hmain⟩ := on_main_file harguments hlists hcontent
  refine ⟨unifyLineEnds content, _, fun _ => unifies_iff, hmain, rfl, rfl, ?_, ?_⟩
  · obtain ⟨behind, hbehind⟩ := exists_eq_append_strip (unifyLineEnds content)
    exact spansIn_of_eq_append (by rwa [String.toList_ofList])
  · intro hcr
    rw [(unifies_unifyLineEnds content).strip_eq hcr]
    obtain ⟨behind, hbehind⟩ := exists_eq_append_strip content
    exact spansIn_of_eq_append (by rwa [String.toList_ofList])

/-! ### Blanks in front -/

theorem read_sampleSession :
    sampleSession.disk.read (.ofString "in.txt") = .ok (encode " mi\n".toList) ∧
      sampleSession.disk.read (.ofString "dos.txt") = .ok (encode "\r\n mi\r\n".toList) := by
  constructor <;> cbv

theorem printed_wordTree : sampleSession.stdout ++ Run.printed (shownLines .json (.ok wordTree)) =
    wordTree.toJson.render ++ "\n" := by
  show "" ++ Run.printed [wordTree.toJson.render] = _
  rw [Run.printed_singleton, String.empty_append]

theorem unifies_dos : Unifies "\r\n mi\r\n".toList "\n mi\n".toList := by
  show Unifies (['\r', '\n'] ++ (' ' :: 'm' :: 'i' :: (['\r', '\n'] ++ []))) _
  exact .lineEnd .both (.char rfl (.char rfl (.char rfl (.lineEnd .both .nil))))

/-- The spans of a word behind a line end and a blank give its bytes behind these, of which the file
has one more than the text. -/
theorem main_file_spans_blank :
    Invocation.ofArguments ["parse", "-f", "dos.txt", "--format", "json"] =
      .ok ⟨false, none, some (.parse none (some "dos.txt") .json)⟩ ∧
    sampleSession.lists = .ok sampleLexicon ∧
    sampleSession.disk.read (.ofString "dos.txt") = .ok (encode "\r\n mi\r\n".toList) ∧
    '\r' ∉ strip "\r\n mi\r\n".toList ∧
    ∃ s', (main ["parse", "-f", "dos.txt", "--format", "json"]).on sampleSession = (.ok 0, s') ∧
      s'.stdout = wordTree.toJson.render ++ "\n" ∧
      SpansIn (encode "\n mi\n".toList) 2 (.ok wordTree) ∧
      SpansIn (encode "\r\n mi\r\n".toList) 3 (.ok wordTree) := by
  have hdash : "dos.txt".toList.head? ≠ some '-' := by decide
  have harguments := ofArguments_parse_file (some .json) hdash
  have hcr : '\r' ∉ strip "\r\n mi\r\n".toList := by decide
  obtain ⟨text, s', htext, hmain, hstdout, -, hspans, hfile⟩ :=
    main_file_spans harguments lists_sampleSession read_sampleSession.2
  obtain rfl : "\n mi\n".toList = text := (htext _).mp unifies_dos
  have hanswer :
      answerOf (.ok sampleLexicon) (String.ofList (strip "\n mi\n".toList)) = .ok wordTree :=
    answerOf_sampleLexicon
  rw [hanswer] at hmain hstdout hspans hfile
  exact ⟨harguments, lists_sampleSession, read_sampleSession.2, hcr, s', hmain,
    hstdout.trans printed_wordTree, hspans, hfile hcr⟩

/-- They do not give its bytes in the file, not even behind a single blank. -/
theorem main_file_spans_shifted :
    sampleSession.lists = .ok sampleLexicon ∧
    sampleSession.disk.read (.ofString "in.txt") = .ok (encode " mi\n".toList) ∧
    ((main ["parse", "-f", "in.txt", "--format", "json"]).on sampleSession).2.stdout =
      wordTree.toJson.render ++ "\n" ∧
    ¬ SpansIn (encode " mi\n".toList) 0 (.ok wordTree) := by
  refine ⟨lists_sampleSession, read_sampleSession.1, ?_, ?_⟩
  · have hdash : "in.txt".toList.head? ≠ some '-' := by decide
    have harguments := ofArguments_parse_file (some .json) hdash
    obtain ⟨store, hmain⟩ := on_main_file harguments lists_sampleSession read_sampleSession.1
    have hanswer : answerOf (.ok sampleLexicon)
        (String.ofList (strip (unifyLineEnds " mi\n".toList))) = .ok wordTree := by
      rw [← unifies_iff.mp (unifies_self (by decide : '\r' ∉ " mi\n".toList))]
      exact answerOf_sampleLexicon
    rw [hanswer] at hmain
    exact (congrArg (·.2.stdout) hmain).trans printed_wordTree
  · intro h
    obtain ⟨i, j, hspan, -, -, hslice⟩ := h "mi" (0, 2) (List.mem_cons_self ..)
    obtain ⟨hi, hj⟩ := Prod.mk.inj hspan
    obtain rfl : i = 0 := by omega
    obtain rfl : j = 2 := by omega
    exact absurd hslice (by decide)

end Command

end Lojban
