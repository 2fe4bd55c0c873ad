import CitationLocale.Proofs.Filling
import CitationLocale.Proofs.WrittenTree

/-!
# Reading indented markup

Indentation adds line breaks and spaces between tags, and nowhere else. Such text is dropped when
the markup is read, so that a tree is read from its indented markup just as from its plain markup,
with any registry (`parseWith_pretty`).
-/

namespace CitationLocale

open Markup Text

namespace Outline

/-! ## Fragments of indented markup -/

/-- A line break and the spaces at the start of a line. -/
def newline (depth : Nat) : String :=
  String.ofList ('\n' :: List.replicate (2 * depth) ' ')

mutual

/-- The fragments of indented markup; line breaks are texts. -/
def indented (depth : Nat) : Outline → List Fragment
  | node label children =>
    if isInline (node label children) then fragments (node label children)
    else
      .start label.name label.attributes.assignments ::
        (indentedBelow (depth + 1) children ++ [.text (newline depth), .close label.name])

/-- The fragments of the outlines below another one, each on a new line. -/
def indentedBelow (depth : Nat) : List Outline → List Fragment
  | [] => []
  | o :: os => .text (newline depth) :: (indented depth o ++ indentedBelow depth os)

end

theorem escape_newline (depth : Nat) :
    escape (newline depth).toList = '\n' :: List.replicate (2 * depth) ' ' := by
  have hspaces (n : Nat) : escape (List.replicate n ' ') = List.replicate n ' ' := by
    induction n with
    | zero => rfl
    | succ n ih => rw [List.replicate_succ, escape, List.flatMap_cons]; exact congrArg _ ih
  rw [newline, String.toList_ofList, escape, List.flatMap_cons]
  exact congrArg _ (hspaces _)

mutual

/-- The lines of an outline, each after a line break, are the characters of its fragments. -/
theorem chars_lines (depth : Nat) : ∀ o : Outline,
    (o.lines depth).flatMap (fun l => '\n' :: l.chars) =
      escape (newline depth).toList ++ (o.indented depth).flatMap Fragment.chars
  | node label children => by
    rw [lines, indented, escape_newline]
    split_ifs with h
    · simp [Line.chars]
    · rw [List.flatMap_cons, List.flatMap_append, chars_childLines (depth + 1) children]
      simp [Line.chars, Fragment.chars, escape_newline]

theorem chars_childLines (depth : Nat) : ∀ os : List Outline,
    (childLines depth os).flatMap (fun l => '\n' :: l.chars) =
      (indentedBelow depth os).flatMap Fragment.chars
  | [] => rfl
  | o :: os => by
    rw [childLines, indentedBelow, List.flatMap_append, chars_lines depth o,
      chars_childLines depth os]
    simp [Fragment.chars]

end

theorem lines_ne_nil (depth : Nat) (o : Outline) : o.lines depth ≠ [] := by
  obtain ⟨label, children⟩ := o
  rw [lines]
  split_ifs <;> simp

theorem cons_intercalate {c : Char} {ls : List (List Char)} (h : ls ≠ []) :
    c :: [c].intercalate ls = ls.flatMap (c :: ·) := by
  induction ls with
  | nil => exact absurd rfl h
  | cons l ls ih =>
    cases ls with
    | nil => simp [List.intercalate]
    | cons m ls => simpa [List.intercalate] using ih (by simp)

theorem pretty_eq (o : Outline) :
    o.pretty = String.ofList ((o.indented 0).flatMap Fragment.chars) := by
  have hne : (o.lines 0).map Line.chars ≠ [] := by simpa using o.lines_ne_nil 0
  have hchars := chars_lines 0 o
  rw [escape_newline, ← List.flatMap_map, ← cons_intercalate hne] at hchars
  rw [pretty, List.tail_eq_of_cons_eq hchars]
  rfl

/-! ## The item of indented markup -/

mutual

/-- The item that an outline is written as with indentation. -/
def indentedItem (depth : Nat) : Outline → Item
  | node label children =>
    if isInline (node label children) then item (node label children)
    else
      .element label.name label.attributes.assignments
        (indentedItems (depth + 1) children ++ [.text (newline depth)])

/-- The items of the outlines below another one, each on a new line. -/
def indentedItems (depth : Nat) : List Outline → List Item
  | [] => []
  | o :: os => .text (newline depth) :: indentedItem depth o :: indentedItems depth os

end

mutual

theorem tokens_indentedItem (depth : Nat) : ∀ o : Outline,
    (o.indentedItem depth).tokens = (o.indented depth).map Fragment.token
  | node label children => by
    rw [indentedItem, indented]
    split_ifs
    · exact tokens_item _
    · rw [Item.tokens, Item.rowTokens_append, rowTokens_indentedItems (depth + 1) children]
      simp [Item.rowTokens, Item.tokens, Fragment.token]

theorem rowTokens_indentedItems (depth : Nat) : ∀ os : List Outline,
    Item.rowTokens (indentedItems depth os) = (indentedBelow depth os).map Fragment.token
  | [] => rfl
  | o :: os => by
    rw [indentedItems, indentedBelow, Item.rowTokens, Item.rowTokens,
      rowTokens_indentedItems depth os, tokens_indentedItem depth o]
    simp [Item.tokens, Fragment.token]

end

theorem rowTokens_indentedItem (depth : Nat) (o : Outline) :
    Item.rowTokens [o.indentedItem depth] = (o.indented depth).map Fragment.token := by
  rw [Item.rowTokens, Item.rowTokens, List.append_nil, tokens_indentedItem]

theorem isElement_indentedItem (depth : Nat) (o : Outline) :
    (o.indentedItem depth).isElement = true := by
  obtain ⟨label, children⟩ := o
  rw [indentedItem]
  split_ifs
  · exact isElement_item _
  · rfl

theorem isInline_eq_false_iff {label : Label} {children : List Outline} :
    isInline (node label children) = false ↔
      (children ≠ [] ∧ label.text? = none) ∧ ∀ c ∈ children, c.label.raw = false := by
  simp [isInline, Outline.children, Outline.label]

section

variable {P : Fragment → Prop} (htext : ∀ s, P (.text s))
include htext

theorem forall_indentedBelow {os : List Outline} (depth : Nat)
    (hraw : ∀ o ∈ os, o.label.raw = false)
    (hos : ∀ o ∈ os, (∀ f ∈ o.indented depth, P f) ↔ ∀ f ∈ o.fragments, P f) :
    (∀ f ∈ indentedBelow depth os, P f) ↔ ∀ f ∈ childFragments os, P f := by
  induction os with
  | nil => rfl
  | cons o os ih =>
    rw [List.forall_mem_cons] at hraw hos
    rw [indentedBelow, childFragments, hraw.1, if_neg Bool.false_ne_true]
    simp only [List.forall_mem_cons, List.forall_mem_append, htext, true_and, hos.1,
      ih hraw.2 hos.2]

/-- Indentation makes no difference to what holds of all fragments, if it holds of every text. -/
theorem forall_indented (o : Outline) (depth : Nat) :
    (∀ f ∈ o.indented depth, P f) ↔ ∀ f ∈ o.fragments, P f := by
  induction o using Outline.inductionOn generalizing depth with
  | node label children ih =>
    rw [indented]
    split_ifs with h
    · rfl
    · obtain ⟨⟨hne, hnone⟩, hraw⟩ := isInline_eq_false_iff.1 (Bool.eq_false_iff.2 h)
      rw [fragments_of_ne_nil hnone hne]
      simp only [List.forall_mem_cons, List.forall_mem_append, htext, true_and,
        forall_indentedBelow htext (depth + 1) hraw fun o ho => ih o ho (depth + 1)]

end

theorem head_indented (depth : Nat) (o : Outline) :
    ((o.indented depth).flatMap Fragment.chars).head? = some '<' := by
  have hmarkup := o.head_markup
  obtain ⟨label, children⟩ := o
  rw [indented]
  split_ifs
  · exact hmarkup
  · rfl

end Outline

/-! ## Line breaks between elements -/

section

variable {r : Registry}

theorem isBlank_newline (depth : Nat) : isBlank (Outline.newline depth) = true := by
  simp only [isBlank, Outline.newline, String.toList_ofList, List.all_cons, Bool.and_eq_true]
  refine ⟨by decide, List.all_eq_true.2 fun c hc => ?_⟩
  rw [List.eq_of_mem_replicate hc]
  decide

/-- What does not hold text drops blank text at its end. -/
theorem OpenNode.closeAs_of_blank {n : Node} (hn : n.holdsText = false) {p q : String}
    (hp : isBlank p = true) (hq : isBlank q = true) (name : String) :
    OpenNode.closeAs ⟨n, p⟩ name = OpenNode.closeAs ⟨n, q⟩ name := by
  have hflush : OpenNode.flush ⟨n, p⟩ = OpenNode.flush ⟨n, q⟩ := by
    rw [flush_of_blank (o := ⟨n, p⟩) hp, flush_of_blank (o := ⟨n, q⟩) hq]
  unfold closeAs finish
  simp only [hn, Bool.false_eq_true, if_false, hflush]

/-- Line breaks between the children of a node make no difference. -/
theorem fill_indentedItems {os : List Outline} (depth : Nat)
    (hbuild : ∀ o ∈ os, (o.indentedItem depth).build r = o.item.build r)
    (hraw : ∀ o ∈ os, o.label.raw = false) {n : Node} (hn : os ≠ [] ∨ n.holdsText = false)
    {p q s : String} (hp : isBlank p = true) (hq : isBlank q = true) (hs : isBlank s = true)
    (name : String) :
    (Item.fill r (Outline.indentedItems depth os ++ [.text s]) ⟨n, p⟩ >>= (·.closeAs name)) =
      (Item.fill r (Outline.childItems os) ⟨n, q⟩ >>= (·.closeAs name)) := by
  induction os generalizing n p q with
  | nil =>
    have hps : isBlank (p ++ s) = true := by rw [isBlank_append, hp, hs]; rfl
    exact OpenNode.closeAs_of_blank (hn.resolve_left fun h => h rfl) hps hq name
  | cons o os ih =>
    rw [List.forall_mem_cons] at hbuild hraw
    have hpn : isBlank (p ++ Outline.newline depth) = true := by
      rw [isBlank_append, hp, isBlank_newline]
      rfl
    rw [Outline.indentedItems, Outline.childItems, hraw.1, if_neg (by simp), List.cons_append,
      List.cons_append, Item.fill, Item.addTo, Result.ok_bind, Item.fill, Item.fill,
      Item.addTo_of_isElement r (Outline.isElement_indentedItem depth o),
      Item.addTo_of_isElement r (Outline.isElement_item o), hbuild.1,
      OpenNode.flush_of_blank (o := OpenNode.addText ⟨n, p⟩ (Outline.newline depth)) hpn,
      OpenNode.flush_of_blank (o := ⟨n, q⟩) hq]
    simp only [OpenNode.addText, Result.ok_bind]
    cases hchild : o.item.build r with
    | error e => rfl
    | ok child =>
      simp only [Result.ok_bind]
      cases happend : OpenNode.append ⟨n, ""⟩ child with
      | error e => rfl
      | ok next =>
        obtain ⟨flushed, hflush, hnode, hpending⟩ := OpenNode.append_eq_ok happend
        have hholds := Node.holdsText_append hnode (Item.isRaw_build r hchild)
        obtain ⟨node, pending⟩ := next
        obtain rfl : pending = "" := hpending
        exact ih hbuild.2 hraw.2 (.inr hholds) rfl rfl

/-- Indentation makes no difference to what is built. -/
theorem build_indentedItem (o : Outline) (depth : Nat) :
    (o.indentedItem depth).build r = o.item.build r := by
  induction o using Outline.inductionOn generalizing depth with
  | node label children ih =>
    rw [Outline.indentedItem]
    split_ifs with h
    · rfl
    · obtain ⟨⟨hne, htext⟩, hraw⟩ :=
        Outline.isInline_eq_false_iff.1 (Bool.eq_false_iff.2 h)
      rw [Outline.item_of_ne_nil htext hne, Item.build, Item.build]
      exact fill_indentedItems _ (fun o ho => ih o ho _) hraw (.inl hne) rfl rfl
        (isBlank_newline depth) _

end

theorem parseWith_pretty_of_fragments {r : Registry} {n : Node}
    (h : ∀ f ∈ n.outline.fragments, f.IsWritable) :
    Node.parseWith r n.pretty = Node.parseWith r n.toXml := by
  rw [parseWith_toXml_of_fragments h, ← build_indentedItem n.outline 0, Node.pretty,
    Outline.pretty_eq]
  refine parseWith_written [n.outline.indentedItem 0]
    ((Outline.forall_indented (fun _ => trivial) n.outline 0).2 h)
    (n.outline.rowTokens_indentedItem 0) (n.outline.head_indented 0) ?_
  simp [Item.elements, Outline.isElement_indentedItem]

/-- Indented markup of a tree whose names can be written is read just as its plain markup. -/
theorem parseWith_pretty {r : Registry} {n : Node} (h : n.Everywhere Node.IsWritable) :
    Node.parseWith r n.pretty = Node.parseWith r n.toXml :=
  parseWith_pretty_of_fragments (Node.isWritable_fragments h)

end CitationLocale
