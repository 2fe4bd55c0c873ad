import CitationLocale.Markup.Stream
import CitationLocale.Proofs.WrittenTree

/-!
# The order in which fragments are produced

A stream of fragments produces those that are ready and then, for each open node from the innermost
one on, what its children to come are written as and its end tag (`FragmentStream.toList_eq`). So
the fragments of a node come out as the recursion over the tree describes them, and start and end
tags are nested (`Node.streamed_eq_recursion`). The markup of a node is what they are written as
(`Outline.toXml_eq_join`).
-/

namespace CitationLocale

open Markup

namespace Markup

/-- Start and end tags with equal names are nested. -/
inductive Nested : List Fragment → Prop
  | nil : Nested []
  | text (s : String) {fs : List Fragment} : Nested fs → Nested (.text s :: fs)
  | empty (name : String) (attributes : List (String × String)) {fs : List Fragment} :
      Nested fs → Nested (.empty name attributes :: fs)
  | element (name : String) (attributes : List (String × String)) {inner fs : List Fragment} :
      Nested inner → Nested fs → Nested (.start name attributes :: (inner ++ .close name :: fs))

theorem Nested.append {fs gs : List Fragment} (hf : Nested fs) (hg : Nested gs) :
    Nested (fs ++ gs) := by
  induction hf with
  | nil => exact hg
  | text s _ ih => exact .text s ih
  | empty name attributes _ ih => exact .empty name attributes ih
  | element name attributes hinner _ _ ih =>
    rw [List.cons_append, List.append_assoc, List.cons_append]
    exact .element name attributes hinner ih

end Markup

namespace Outline

/-- What the children of an outline are written as: raw text bare, all others with their tags. -/
theorem childFragments_eq_flatMap (os : List Outline) : childFragments os =
    os.flatMap fun o => if o.label.raw then [.text (o.label.text?.getD "")] else o.fragments := by
  induction os with
  | nil => rfl
  | cons o os ih => rw [childFragments, ih, List.flatMap_cons]

theorem nested_childFragments {os : List Outline} (h : ∀ o ∈ os, Nested o.fragments) :
    Nested (childFragments os) := by
  induction os with
  | nil => exact .nil
  | cons o os ih =>
    rw [List.forall_mem_cons] at h
    rw [childFragments]
    split_ifs
    · exact .text _ (ih h.2)
    · exact h.1.append (ih h.2)

theorem nested_fragments (o : Outline) : Nested o.fragments := by
  induction o using Outline.inductionOn with
  | node label children ih =>
    cases htext : label.text? with
    | some s =>
      rw [fragments_of_text htext]
      exact .element _ _ (.text s .nil) .nil
    | none =>
      by_cases hnil : children = []
      · rw [hnil, fragments_of_nil htext]
        exact .empty _ _ .nil
      · rw [fragments_of_ne_nil htext hnil]
        exact .element _ _ (nested_childFragments ih) .nil

theorem streamed_eq (o : Outline) : o.streamed = o.fragments := by
  rw [streamed, FragmentStream.toList_eq, FragmentStream.ofOutline, FragmentStream.remaining_enter]
  simp

/-- The markup of an outline is what its fragments are written as, one after the other. -/
theorem toXml_eq_join (o : Outline) : o.toXml = String.join (o.streamed.map Fragment.write) := by
  rw [toXml, streamed_eq, markup, ← String.toList_inj, String.toList_ofList, String.toList_join,
    List.flatMap_map]
  simp only [Fragment.write, String.toList_ofList]

end Outline

namespace Node

variable (n : Node)

theorem fragments_of_text? {s : String} (h : n.text? = some s) : n.outline.fragments =
    [.start n.name n.attributes.assignments, .text s, .close n.name] := by
  rw [outline_eq]
  exact Outline.fragments_of_text h

theorem fragments_of_children (htext : n.text? = none) (hne : n.children ≠ []) :
    n.outline.fragments = .start n.name n.attributes.assignments ::
      ((n.children.flatMap fun c =>
        if c.isRaw then [.text (c.text?.getD "")] else c.outline.fragments) ++ [.close n.name]) := by
  rw [outline_eq, Outline.fragments_of_ne_nil htext (mt List.map_eq_nil_iff.1 hne),
    Outline.childFragments_eq_flatMap, List.flatMap_map]
  simp only [label_outline]
  rfl

theorem fragments_of_empty (htext : n.text? = none) (hnil : n.children = []) :
    n.outline.fragments = [.empty n.name n.attributes.assignments] := by
  rw [outline_eq, hnil]
  exact Outline.fragments_of_nil htext

/-- Producing the fragments of a node ends, and yields them as the recursion over the tree says: a
node with text as a text between tags, a node with children as its children between tags, where raw
text is bare, and any other node as one empty tag. The tags are nested. -/
theorem streamed_eq_recursion :
    FragmentStream.iterator.Yields (.ofOutline n.outline) n.outline.streamed ∧
      (∀ s, n.text? = some s → n.outline.streamed =
        [.start n.name n.attributes.assignments, .text s, .close n.name]) ∧
      (n.text? = none → n.children ≠ [] → n.outline.streamed =
        .start n.name n.attributes.assignments :: ((n.children.flatMap fun c =>
          if c.isRaw then [.text (c.text?.getD "")] else c.outline.streamed) ++
            [.close n.name])) ∧
      (n.text? = none → n.children = [] →
        n.outline.streamed = [.empty n.name n.attributes.assignments]) ∧
      n.outline.streamed = n.outline.fragments ∧
      Nested n.outline.streamed := by
  refine ⟨Iterator.yields_collect _, ?_⟩
  simp only [Outline.streamed_eq]
  exact ⟨fun s => n.fragments_of_text?, n.fragments_of_children, n.fragments_of_empty, trivial,
    n.outline.nested_fragments⟩

/-- Empty text is written between tags, also that of raw text on its own; below another node raw
text is bare. -/
theorem streamed_of_empty_text :
    (Node.text (.raw "")).outline.streamed =
        [.start "text-node" [], .text "", .close "text-node"] ∧
      (Node.element none "a" .empty
          [.text (.raw ""), .generic "b" .empty]).outline.streamed =
        [.start "a" [], .text "", .empty "b" [], .close "a"] := by
  have hraw := (streamed_eq_recursion (.text (.raw ""))).2.1 "" rfl
  have hchildren := (streamed_eq_recursion
    (.element none "a" .empty [.text (.raw ""), .generic "b" .empty])).2.2.1 rfl (by simp [children])
  have hempty := (streamed_eq_recursion (.generic "b" .empty)).2.2.2.1 rfl rfl
  refine ⟨hraw, hchildren.trans ?_⟩
  rw [children, List.flatMap_cons, List.flatMap_cons, hempty]
  rfl

end Node

end CitationLocale
