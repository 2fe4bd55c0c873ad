import CitationLocale.Proofs.InPlace
import CitationLocale.Proofs.Indentation

/-!
# Histories of a term

A term that is edited in place represents, after every history of changes, the term that the same
changes yield without (`TermDraft.represents_foldl`). So flat text and forms never stand together
in it, although nothing in its fields forbids it, and what is written shows either its text or its
forms (`TermDraft.Represents.isUniform`).
-/

namespace CitationLocale

open Markup

/-- A change of the content of a term. -/
inductive TermChange where
  | setText (s : String)
  | setSingle (s : String)
  | setMultiple (s : String)
  | setForms (single multiple : String)
  | add (a : Addition)

/-- The term after a change; an addition that is refused leaves it as it is. -/
def Term.after (t : Term) : TermChange → Term
  | .setText s => t.setText s
  | .setSingle s => t.setSingle s
  | .setMultiple s => t.setMultiple s
  | .setForms single multiple => t.setForms single multiple
  | .add a =>
    match (Node.term t).add a with
    | .ok (.term u) => u
    | _ => t

theorem Term.after_add (t : Term) (a : Addition) :
    t.after (.add a) = (t.add a).toOption.getD t := by
  rw [after, Node.add_term_eq_map]
  cases t.add a <;> rfl

namespace TermDraft

/-- The change in place. -/
def change : TermChange → Editing TermDraft Unit
  | .setText s => setText s
  | .setSingle s => setSingle s
  | .setMultiple s => setMultiple s
  | .setForms single multiple => setForms single multiple
  | .add a => add a

/-- What is stored after a change, whether it succeeded or not. -/
def after (d : TermDraft) (c : TermChange) : TermDraft :=
  ((change c).run.run d).2

/-- The nodes of the forms, the singular before the plural. -/
def children (d : TermDraft) : List TextNode :=
  d.single?.toList ++ d.multiple?.toList

/-- Whether the term holds text of its own. -/
def isTextNode (d : TermDraft) : Bool :=
  d.text?.isSome

def hasChildren (d : TermDraft) : Bool :=
  !d.children.isEmpty

/-- The outline of a stored term. -/
def outline (d : TermDraft) : Outline :=
  .node ⟨some (.builtin .term), "term", d.attributes, d.text?, false⟩
    (d.children.map TextNode.outline)

variable {d : TermDraft} {t : Term}

/-! ## Changes -/

theorem Represents.after (h : d.Represents t) (c : TermChange) :
    (d.after c).Represents (t.after c) := by
  cases c with
  | setText s => exact Editing.Follows.represents (follows_setText h s) h
  | setSingle s => exact Editing.Follows.represents (follows_setSingle h s) h
  | setMultiple s => exact Editing.Follows.represents (follows_setMultiple h s) h
  | setForms single multiple =>
    exact Editing.Follows.represents (follows_setForms h single multiple) h
  | add a =>
    rw [Term.after_add]
    exact Editing.Follows.represents (follows_add h a) h

theorem Represents.foldl_after (h : d.Represents t) (changes : List TermChange) :
    (changes.foldl TermDraft.after d).Represents (changes.foldl Term.after t) := by
  induction changes generalizing d t with
  | nil => exact h
  | cons c changes ih => exact ih (h.after c)

/-! ## Content of one kind -/

/-- A stored term has text or forms, but not both, its forms are of the built-in types, the singular
before the plural, and this is what is written: on one line the text, or the forms, each between its
own tags and in indented markup on its own line. -/
structure IsUniform (d : TermDraft) : Prop where
  exclusive : ¬ (d.text?.isSome = true ∧ d.hasForms = true)
  not_both : ¬ (d.isTextNode = true ∧ d.hasChildren = true)
  types : d.children.map (fun form => form.type?) =
    (d.single?.map fun _ => some (.builtin .single)).toList ++
      (d.multiple?.map fun _ => some (.builtin .multiple)).toList
  fragments : d.outline.fragments =
    match d.text? with
    | some s => [.start "term" d.attributes.assignments, .text s, .close "term"]
    | none =>
      if d.hasChildren then
        .start "term" d.attributes.assignments ::
          (d.children.flatMap (fun form => form.outline.fragments) ++ [.close "term"])
      else [.empty "term" d.attributes.assignments]
  lines : d.outline.lines 0 =
    if d.hasChildren then
      ⟨0, [.start "term" d.attributes.assignments]⟩ ::
        (d.children.map (fun form => ⟨1, form.outline.fragments⟩) ++ [⟨0, [.close "term"]⟩])
    else [⟨0, d.outline.fragments⟩]

theorem hasChildren_eq_hasForms (d : TermDraft) : d.hasChildren = d.hasForms := by
  unfold hasChildren children hasForms
  cases d.single? <;> cases d.multiple? <;> rfl

theorem Represents.exclusive (h : d.Represents t) :
    ¬ (d.text?.isSome = true ∧ d.hasForms = true) := by
  rintro ⟨htext, hforms⟩
  obtain ⟨s, hs⟩ := Option.isSome_iff_exists.1 htext
  rw [h.hasForms_eq, Term.hasForms_eq_false_of_text (h.text.symm.trans hs)] at hforms
  exact absurd hforms Bool.false_ne_true

theorem Represents.types (h : d.Represents t) : d.children.map (fun form => form.type?) =
    (d.single?.map fun _ => some (.builtin .single)).toList ++
      (d.multiple?.map fun _ => some (.builtin .multiple)).toList := by
  rw [children, h.single, h.multiple]
  cases t.singleForm? <;> cases t.multipleForm? <;> rfl

theorem Represents.children_eq (h : d.Represents t) : d.children = t.formNodes := by
  rw [children, h.single, h.multiple, Term.formNodes]

theorem Represents.isRaw_of_mem (h : d.Represents t) : ∀ form ∈ d.children, form.isRaw = false := by
  intro form hform
  rw [h.children_eq] at hform
  obtain ⟨f, rfl | rfl⟩ := Term.mem_formNodes hform <;> rfl

end TermDraft

namespace Outline

variable {forms : List TextNode}

theorem childFragments_forms (h : ∀ form ∈ forms, form.isRaw = false) :
    childFragments (forms.map TextNode.outline) =
      forms.flatMap fun form => form.outline.fragments := by
  induction forms with
  | nil => rfl
  | cons form forms ih =>
    rw [List.forall_mem_cons] at h
    have hraw : form.outline.label.raw = false := h.1
    rw [List.map_cons, childFragments, ih h.2, List.flatMap_cons]
    simp [hraw]

theorem childLines_forms (depth : Nat) : childLines depth (forms.map TextNode.outline) =
    forms.map fun form => ⟨depth, form.outline.fragments⟩ := by
  induction forms with
  | nil => rfl
  | cons form forms ih =>
    rw [List.map_cons, childLines, ih]
    rfl

end Outline

namespace TermDraft

variable {d : TermDraft} {t : Term}

theorem children_eq_nil_iff (d : TermDraft) : d.children = [] ↔ d.hasChildren = false := by
  rw [hasChildren, Bool.not_eq_false', List.isEmpty_iff]

theorem Represents.fragments (h : d.Represents t) : d.outline.fragments =
    match d.text? with
    | some s => [.start "term" d.attributes.assignments, .text s, .close "term"]
    | none =>
      if d.hasChildren then
        .start "term" d.attributes.assignments ::
          (d.children.flatMap (fun form => form.outline.fragments) ++ [.close "term"])
      else [.empty "term" d.attributes.assignments] := by
  cases htext : d.text? with
  | some s => exact Outline.fragments_of_text htext
  | none =>
    cases hchildren : d.hasChildren with
    | false =>
      rw [outline, d.children_eq_nil_iff.2 hchildren]
      exact Outline.fragments_of_nil htext
    | true =>
      have hne : d.children.map TextNode.outline ≠ [] := by
        rw [Ne, List.map_eq_nil_iff, children_eq_nil_iff, hchildren]
        exact Bool.noConfusion
      rw [outline, Outline.fragments_of_ne_nil htext hne,
        Outline.childFragments_forms h.isRaw_of_mem]
      rfl

theorem Represents.lines (h : d.Represents t) : d.outline.lines 0 =
    if d.hasChildren then
      ⟨0, [.start "term" d.attributes.assignments]⟩ ::
        (d.children.map (fun form => ⟨1, form.outline.fragments⟩) ++ [⟨0, [.close "term"]⟩])
    else [⟨0, d.outline.fragments⟩] := by
  cases hchildren : d.hasChildren with
  | false =>
    rw [outline, d.children_eq_nil_iff.2 hchildren]
    rfl
  | true =>
    have htext : d.text? = none := by
      have hexclusive := h.exclusive
      rw [← hasChildren_eq_hasForms, hchildren] at hexclusive
      simpa using hexclusive
    have hinline : Outline.isInline d.outline = false := by
      refine Outline.isInline_eq_false_iff.2 ⟨⟨?_, htext⟩, ?_⟩
      · rw [Ne, List.map_eq_nil_iff, children_eq_nil_iff, hchildren]
        exact Bool.noConfusion
      · rw [List.forall_mem_map]
        exact h.isRaw_of_mem
    rw [outline, Outline.lines, ← outline, if_neg (by simp [hinline]), Outline.childLines_forms]
    rfl

/-- What represents a term has content of one kind. -/
theorem Represents.isUniform (h : d.Represents t) : d.IsUniform where
  exclusive := h.exclusive
  not_both := by
    rw [hasChildren_eq_hasForms]
    exact h.exclusive
  types := h.types
  fragments := h.fragments
  lines := h.lines

end TermDraft

namespace Term

theorem outline_draft (t : Term) : t.draft.outline = (Node.term t).outline := rfl

/-- After every history of changes a term that is edited in place has content of one kind and
represents the term that the changes yield, which has content of one kind as well. It does not
matter which form is set first. -/
theorem isUniform_after :
    (∀ (supplied : Attributes) (changes : List TermChange),
      (changes.foldl TermDraft.after (.create supplied)).IsUniform ∧
        (changes.foldl TermDraft.after (.create supplied)).Represents
          (changes.foldl Term.after (.create supplied))) ∧
    (∀ t : Term, t.draft.IsUniform ∧ t.draft.outline = (Node.term t).outline) ∧
    (∀ (d : TermDraft) (s m : String),
      (do TermDraft.setSingle s; TermDraft.setMultiple m).run.run d =
        (do TermDraft.setMultiple m; TermDraft.setSingle s).run.run d) ∧
    ∀ (t : Term) (s m : String),
      (t.setSingle s).setMultiple m = (t.setMultiple m).setSingle s := by
  refine ⟨fun supplied changes => ?_, fun t => ?_, fun _ _ _ => rfl, fun _ _ _ => rfl⟩
  · have h := (TermDraft.represents_create supplied).foldl_after changes
    exact ⟨h.isUniform, h⟩
  · exact ⟨(TermDraft.represents_draft t).isUniform, t.outline_draft⟩

end Term

end CitationLocale
