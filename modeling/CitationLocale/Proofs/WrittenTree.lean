import CitationLocale.Proofs.Building
import CitationLocale.Proofs.WrittenTokens

/-!
# Reading written trees

An outline is written as one item (`Outline.item`). If the names in a tree can be written, its
markup is read into whatever is built from this item, with any registry (`parseWith_toXml`); what
the texts and attribute values hold does not matter.
-/

namespace CitationLocale

open Markup

/-! ## The item of an outline -/

namespace Outline

/-- Induction over an outline with a hypothesis for everything below it. -/
@[elab_as_elim]
theorem inductionOn {motive : Outline → Prop} (o : Outline)
    (node : ∀ label children, (∀ c ∈ children, motive c) → motive (.node label children)) :
    motive o :=
  go o
where
  go : ∀ o, motive o
    | .node label children => node label children (goAll children)
  goAll : ∀ os : List Outline, ∀ c ∈ os, motive c
    | [], _, h => absurd h List.not_mem_nil
    | o :: os, c, h => (List.mem_cons.1 h).elim (fun h => h ▸ go o) (goAll os c)

mutual

/-- The item that an outline is written as. -/
def item : Outline → Item
  | node label children =>
    let attributes := label.attributes.assignments
    match label.text?, children with
    | some text, _ => .element label.name attributes [.text text]
    | none, [] => .empty label.name attributes
    | none, children => .element label.name attributes (childItems children)

/-- The items of the outlines below another one. -/
def childItems : List Outline → List Item
  | [] => []
  | o :: os => (if o.label.raw then .text (o.label.text?.getD "") else item o) :: childItems os

end

theorem isElement_item (o : Outline) : o.item.isElement = true := by
  obtain ⟨label, children⟩ := o
  unfold item
  split <;> rfl

section

variable {label : Label} {s : String} {os : List Outline}

theorem item_of_text (h : label.text? = some s) :
    item (.node label os) = .element label.name label.attributes.assignments [.text s] := by
  cases label
  cases h
  rfl

theorem item_of_nil (h : label.text? = none) :
    item (.node label []) = .empty label.name label.attributes.assignments := by
  cases label
  cases h
  rfl

theorem item_of_ne_nil (h : label.text? = none) (hne : os ≠ []) : item (.node label os) =
    .element label.name label.attributes.assignments (childItems os) := by
  obtain ⟨o, os, rfl⟩ := List.exists_cons_of_ne_nil hne
  cases label
  cases h
  rfl

theorem fragments_of_text (h : label.text? = some s) : fragments (.node label os) =
    [.start label.name label.attributes.assignments, .text s, .close label.name] := by
  cases label
  cases h
  rfl

theorem fragments_of_nil (h : label.text? = none) :
    fragments (.node label []) = [.empty label.name label.attributes.assignments] := by
  cases label
  cases h
  rfl

theorem fragments_of_ne_nil (h : label.text? = none) (hne : os ≠ []) :
    fragments (.node label os) = .start label.name label.attributes.assignments ::
      (childFragments os ++ [.close label.name]) := by
  obtain ⟨o, os, rfl⟩ := List.exists_cons_of_ne_nil hne
  cases label
  cases h
  rfl

end

mutual

/-- The tokens of the item are the fragments of the outline. -/
theorem tokens_item : ∀ o : Outline, o.item.tokens = o.fragments.map Fragment.token
  | node label children => by
    cases h : label.text? with
    | some s => rw [item_of_text h, fragments_of_text h]; rfl
    | none =>
      by_cases hne : children = []
      · rw [hne, item_of_nil h, fragments_of_nil h]
        rfl
      · rw [item_of_ne_nil h hne, fragments_of_ne_nil h hne, Item.tokens,
          rowTokens_childItems children]
        simp [Fragment.token]

theorem rowTokens_childItems :
    ∀ os : List Outline, Item.rowTokens (childItems os) = (childFragments os).map Fragment.token
  | [] => rfl
  | o :: os => by
    rw [childItems, childFragments, Item.rowTokens, List.map_append, rowTokens_childItems os]
    split
    · rfl
    · rw [tokens_item o]

end

/-! ## The fragments of a tree -/

theorem mem_childFragments {os : List Outline} {f : Fragment} (h : f ∈ childFragments os) :
    (∃ s, f = .text s) ∨ ∃ o ∈ os, f ∈ o.fragments := by
  induction os with
  | nil => exact absurd h List.not_mem_nil
  | cons o os ih =>
    rw [childFragments] at h
    rcases List.mem_append.1 h with h | h
    · split_ifs at h
      · exact .inl ⟨_, List.mem_singleton.1 h⟩
      · exact .inr ⟨o, List.mem_cons_self, h⟩
    · rcases ih h with h | ⟨p, hp, hf⟩
      · exact .inl h
      · exact .inr ⟨p, List.mem_cons_of_mem o hp, hf⟩

theorem head_markup (o : Outline) : (o.fragments.flatMap Fragment.chars).head? = some '<' := by
  obtain ⟨label, children⟩ := o
  unfold fragments
  dsimp only
  split <;> rfl

end Outline

namespace Node

/-- What holds of all texts, and of the tags that are written of each node, holds of all fragments.
A close tag is written for the nodes with content. -/
theorem Everywhere.fragments {P : Node → Prop} {Q : Fragment → Prop} {n : Node}
    (h : n.Everywhere P) (htext : ∀ s, Q (.text s))
    (htags : ∀ m : Node, P m → Q (.start m.name m.attributes.assignments) ∧
      Q (.empty m.name m.attributes.assignments) ∧
      (m.text?.isSome = true ∨ m.children ≠ [] → Q (.close m.name))) :
    ∀ f ∈ n.outline.fragments, Q f := by
  induction h with
  | @intro n hn _ ih =>
    obtain ⟨hstart, hempty, hclose⟩ := htags n hn
    rw [outline_eq]
    intro f hf
    cases hcontent : n.label.text? with
    | some s =>
      rw [Outline.fragments_of_text hcontent] at hf
      simp only [List.mem_cons, List.not_mem_nil, or_false] at hf
      rcases hf with rfl | rfl | rfl
      · exact hstart
      · exact htext s
      · exact hclose (.inl (Option.isSome_iff_exists.2 ⟨s, hcontent⟩))
    | none =>
      by_cases hnil : n.children = []
      · rw [hnil, List.map_nil, Outline.fragments_of_nil hcontent] at hf
        obtain rfl := List.mem_singleton.1 hf
        exact hempty
      · rw [Outline.fragments_of_ne_nil hcontent (mt List.map_eq_nil_iff.1 hnil)] at hf
        rcases List.mem_cons.1 hf with rfl | hf
        · exact hstart
        rcases List.mem_append.1 hf with hf | hf
        · rcases Outline.mem_childFragments hf with ⟨s, rfl⟩ | ⟨o, ho, hf⟩
          · exact htext s
          · obtain ⟨c, hc, rfl⟩ := List.mem_map.1 ho
            exact ih c hc f hf
        · obtain rfl := List.mem_singleton.1 hf
          exact hclose (.inr hnil)

/-- Whether the tag of a node can be read again. -/
def IsWritable (n : Node) : Prop :=
  IsTag n.name n.attributes.assignments

theorem isWritable_fragments {n : Node} (h : n.Everywhere IsWritable) :
    ∀ f ∈ n.outline.fragments, f.IsWritable :=
  h.fragments (fun _ => trivial) fun _ htag => ⟨htag, htag, fun _ => htag.name⟩

end Node

/-! ## Joined texts -/

variable {r : Registry}

theorem foldlM_putText (s : String) (fs : List Fragment) (b : Builder) :
    ((putText s fs).map Fragment.token).foldlM (Builder.step r) b =
      (fs.map Fragment.token).foldlM (Builder.step r) (b.addText s) := by
  rcases putText_cases s fs with ⟨t, gs, rfl, hput⟩ | ⟨-, hput⟩
  · rw [hput]
    simp only [List.map_cons, List.foldlM_cons, Fragment.token, Builder.step, Result.ok_bind]
    obtain ⟨_ | ⟨o, outer⟩, root?⟩ := b
    · rfl
    · simp only [Builder.addText, String.append_assoc]
  · rw [hput]
    split_ifs with hs
    · obtain ⟨_ | ⟨o, outer⟩, root?⟩ := b
      · rfl
      · simp only [Builder.addText, hs, String.append_empty]
    · rfl

/-- Joining texts makes no difference to the builder. -/
theorem foldlM_joinTexts (fs : List Fragment) (b : Builder) :
    ((joinTexts fs).map Fragment.token).foldlM (Builder.step r) b =
      (fs.map Fragment.token).foldlM (Builder.step r) b := by
  induction fs generalizing b with
  | nil => rfl
  | cons f fs ih =>
    cases f with
    | text s => rw [joinTexts, foldlM_putText, ih]; rfl
    | start | empty | close => simp only [joinTexts, List.map_cons, List.foldlM_cons, ih]

theorem Outline.rowTokens_item (o : Outline) :
    Item.rowTokens [o.item] = o.fragments.map Fragment.token := by
  rw [Item.rowTokens, Item.rowTokens, List.append_nil, tokens_item]

theorem openAfter_of_row {fs : List Fragment} {row : List Item}
    (htokens : Item.rowTokens row = fs.map Fragment.token) :
    (openAfter [] (fs.map Fragment.token)).isSome := by
  rw [← htokens, openAfter_rowTokens]
  rfl

/-- Written fragments that are the tokens of a row with one element are read into what is built from
this element. -/
theorem parseWith_written {fs : List Fragment} (row : List Item) {root : Item}
    (hwritable : ∀ f ∈ fs, f.IsWritable) (htokens : Item.rowTokens row = fs.map Fragment.token)
    (hhead : (fs.flatMap Fragment.chars).head? = some '<') (hroot : Item.elements row = [root]) :
    Node.parseWith r (String.ofList (fs.flatMap Fragment.chars)) = root.build r := by
  have hscan := scan_written (openAfter_of_row htokens) hhead hwritable
  refine parseWith_of_row (by rw [hscan]) (fun b => ?_) hroot
  rw [hscan, htokens]
  exact foldlM_joinTexts fs b

theorem parseWith_toXml_of_fragments {n : Node} (h : ∀ f ∈ n.outline.fragments, f.IsWritable) :
    Node.parseWith r n.toXml = n.outline.item.build r := by
  refine parseWith_written [n.outline.item] h n.outline.rowTokens_item n.outline.head_markup ?_
  simp [Item.elements, Outline.isElement_item]

/-- A document that cannot be scanned to its end is not read. -/
theorem exists_error_of_fault {s : String} (h : (scan s).fault?.isSome) :
    ∃ e, Node.parseWith r s = .error e := by
  cases hparse : Node.parseWith r s with
  | error e => exact ⟨e, rfl⟩
  | ok t =>
    rw [(parseWith_eq_ok.1 hparse).1] at h
    simp at h

/-- What is written of a tree is read into what is built from its item. -/
theorem parseWith_toXml {n : Node} (h : n.Everywhere Node.IsWritable) :
    Node.parseWith r n.toXml = n.outline.item.build r :=
  parseWith_toXml_of_fragments (Node.isWritable_fragments h)

end CitationLocale
