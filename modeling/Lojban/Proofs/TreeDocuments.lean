import Lojban.Proofs.JsonReading
import Lojban.Proofs.PassageTree

/-!
# The documents of trees

A tree whose tags all have a meaning is written as a document, and can be told from it: the tag by
its name, a node without children by the missing field.

Main result: `decode?_document`. The text of the document reads as the document, and no other tree
has the same text.
-/

namespace Lojban

namespace Tree

/-! ## Trees whose tags have a meaning -/

theorem isOwn_node_iff {tag : Tag} {text : String} {start stop : ℤ} {children : List Tree} :
    (node tag text start stop children).isOwn = true ↔
      tag.isOwn = true ∧ ∀ c ∈ children, c.isOwn = true := by
  simp only [isOwn, walk_node, walkAll_eq_flatMap, List.all_cons, List.all_flatMap,
    Bool.and_eq_true, List.all_eq_true]
  rfl

end Tree

/-- Tags have different names. -/
theorem Tag.ofName_name (tag : Tag) : ofName tag.name = tag := by
  cases tag with
  | text | sentence | word => rfl
  | other name foreign =>
    simp only [ownNames, List.mem_cons, List.not_mem_nil, or_false, not_or] at foreign
    obtain ⟨htext, hsentence, hword⟩ := foreign
    rw [Tag.name, ofName, dif_neg htext, dif_neg hsentence, dif_neg hword]

theorem Tag.name_inj {tag tag' : Tag} (h : tag.name = tag'.name) : tag = tag' := by
  rw [← ofName_name tag, h, ofName_name]

namespace Tree

/-! ## Documents -/

mutual

/-- The fields of a node have different names. -/
theorem keysDiffer_toJson (t : Tree) : t.toJson.KeysDiffer := by
  obtain ⟨tag, text, start, stop, children⟩ := t
  cases children with
  | nil =>
    simp [toJson, Json.KeysDiffer, Json.KeysDifferFields, Json.KeysDifferAll]
  | cons c cs =>
    have hchildren := keysDifferAll_toJsonAll (c :: cs)
    simp [toJson, Json.KeysDiffer, Json.KeysDifferFields, Json.KeysDifferAll, hchildren]

theorem keysDifferAll_toJsonAll (ts : List Tree) : Json.KeysDifferAll (toJsonAll ts) := by
  cases ts with
  | nil => rw [toJsonAll, Json.KeysDifferAll]; trivial
  | cons t ts =>
    rw [toJsonAll, Json.KeysDifferAll]
    exact ⟨keysDiffer_toJson t, keysDifferAll_toJsonAll ts⟩

end

mutual

/-- Trees with one document are equal. -/
theorem toJson_inj (t u : Tree) (h : t.toJson = u.toJson) : t = u := by
  obtain ⟨tag, text, start, stop, children⟩ := t
  obtain ⟨tag', text', start', stop', children'⟩ := u
  cases children with
  | nil =>
    cases children' with
    | nil =>
      simp only [toJson, Json.record.injEq, List.cons.injEq, Prod.mk.injEq, Json.text.injEq,
        Json.list.injEq, Json.number.injEq, true_and, and_true] at h
      obtain ⟨hname, rfl, rfl, rfl⟩ := h
      rw [Tag.name_inj hname]
    | cons c' cs' => simp [toJson] at h
  | cons c cs =>
    cases children' with
    | nil => simp [toJson] at h
    | cons c' cs' =>
      simp only [toJson, Json.record.injEq, List.cons.injEq, Prod.mk.injEq, Json.text.injEq,
        Json.list.injEq, Json.number.injEq, true_and, and_true] at h
      obtain ⟨hname, rfl, ⟨rfl, rfl⟩, hchildren⟩ := h
      rw [Tag.name_inj hname, toJsonAll_inj (c :: cs) (c' :: cs') hchildren]

theorem toJsonAll_inj (ts us : List Tree) (h : toJsonAll ts = toJsonAll us) : ts = us := by
  cases ts with
  | nil =>
    cases us with
    | nil => rfl
    | cons u us => rw [toJsonAll, toJsonAll] at h; cases h
  | cons t ts =>
    cases us with
    | nil => rw [toJsonAll, toJsonAll] at h; cases h
    | cons u us =>
      rw [toJsonAll, toJsonAll, List.cons.injEq] at h
      rw [toJson_inj t u h.1, toJsonAll_inj ts us h.2]

end

/-- **The text of a tree's document gives the tree back.** A tree whose tags all have a meaning has
a document, the text of the document reads as the document, and no other tree has the same text. -/
theorem decode?_document {t : Tree} (h : t.isOwn = true) :
    t.toJson? = some t.toJson ∧ Json.decode? t.toJson.render = some t.toJson ∧
      ∀ u : Tree, u.isOwn = true → u.toJson.render = t.toJson.render → u = t := by
  have hread := Json.decode?_render t.keysDiffer_toJson
  refine ⟨if_pos h, hread, ?_⟩
  intro u _ htext
  apply toJson_inj u t
  have hsame := Json.decode?_render u.keysDiffer_toJson
  rw [htext, hread] at hsame
  exact (Option.some.inj hsame).symm

/-- A tree that no text has: a word stands for quotes and control characters, and another lies below
it. -/
def oddTree : Tree :=
  .node .word "\"\n\x07é" (-3) 18446744073709551616 [.node .sentence "" 0 0 []]

theorem decode?_document_odd :
    oddTree.isOwn = true ∧ Json.decode? oddTree.toJson.render = some oddTree.toJson ∧
      ∀ u : Tree, u.isOwn = true → u.toJson.render = oddTree.toJson.render → u = oddTree := by
  have hown : oddTree.isOwn = true := rfl
  exact ⟨hown, (decode?_document hown).2⟩

end Tree

end Lojban
