import CitationLocale.Iteration
import CitationLocale.Node.Outline

/-!
# Visiting what is below a node

The outlines below a root are visited one at a time, each of them before what is below it. A visit
remembers, for each level from the root down to the outline that was visited last, the outlines
that are still to come there.
-/

namespace CitationLocale

/-- A visit that is under way: the outlines to come at each level, innermost level first. -/
structure Descent where
  levels : List (List Outline)

namespace Descent

/-- The visit of everything below an outline. -/
def below (o : Outline) : Descent :=
  ⟨[o.children]⟩

/-- The next outline. Its children come first from then on; a level at its end is given up. -/
def next? (d : Descent) : Option (Outline × Descent) :=
  match d with
  | ⟨[]⟩ => none
  | ⟨[] :: levels⟩ => next? ⟨levels⟩
  | ⟨(o :: os) :: levels⟩ => some (o, ⟨o.children :: os :: levels⟩)
termination_by d.levels.length

/-- The outlines to come. -/
def remaining (d : Descent) : List Outline :=
  d.levels.flatMap Outline.withDescendants

/-- The next outline is the first one to come. -/
theorem remaining_eq (d : Descent) :
    d.remaining = match d.next? with
      | none => []
      | some (o, rest) => o :: rest.remaining := by
  induction d using next?.induct with
  | case1 => rw [next?]; rfl
  | case2 levels ih => rw [next?, ← ih]; rfl
  | case3 o os levels =>
    obtain ⟨label, children⟩ := o
    rw [next?]
    simp [remaining, Outline.withDescendants, Outline.descendants, Outline.children]

theorem remaining_of_none {d : Descent} (h : d.next? = none) : d.remaining = [] := by
  rw [remaining_eq, h]

theorem remaining_of_some {d rest : Descent} {o : Outline} (h : d.next? = some (o, rest)) :
    d.remaining = o :: rest.remaining := by
  rw [remaining_eq, h]

/-- A visit as an iterator. -/
def iterator : Iterator Descent Outline where
  next? := next?
  bound d := d.remaining.length
  bound_lt h := by
    rw [remaining_of_some h]
    exact Nat.lt_succ_self _

/-- All outlines to come, one after the other. -/
def toList (d : Descent) : List Outline :=
  iterator.collect d

theorem toList_eq (d : Descent) : d.toList = d.remaining :=
  Iterator.collect_eq remaining (fun _ => remaining_of_none) (fun _ _ _ => remaining_of_some) d

end Descent

/-- Everything below an outline as it is visited. -/
def Outline.visited (o : Outline) : List Outline :=
  (Descent.below o).toList

end CitationLocale
