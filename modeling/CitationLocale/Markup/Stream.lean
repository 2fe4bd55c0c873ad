import CitationLocale.Iteration
import CitationLocale.Markup.Fragment

/-!
# Fragments one at a time

The fragments of an outline are produced one at a time. A stream of fragments holds those that are
ready, and remembers, for each node whose start tag was produced and whose end tag was not, the
children that are still to come.
-/

namespace CitationLocale

namespace Markup

/-- A row of fragments that is under way. -/
structure FragmentStream where
  ready : List Fragment
  /-- The names of the open nodes and their children to come, innermost node first. -/
  opened : List (String × List Outline)

namespace FragmentStream

/-- Readies the first fragments of an outline: all of them, unless it has children to come. -/
def enter (s : FragmentStream) (o : Outline) : FragmentStream :=
  let attributes := o.label.attributes.assignments
  match o.label.text?, o.children with
  | some text, _ =>
    { s with ready := s.ready ++
        [.start o.label.name attributes, .text text, .close o.label.name] }
  | none, [] => { s with ready := s.ready ++ [.empty o.label.name attributes] }
  | none, children =>
    ⟨s.ready ++ [.start o.label.name attributes], (o.label.name, children) :: s.opened⟩

/-- The stream of all fragments of an outline. -/
def ofOutline (o : Outline) : FragmentStream :=
  enter ⟨[], []⟩ o

theorem isEmpty_ready_enter (s : FragmentStream) (o : Outline) :
    (s.enter o).ready.isEmpty = false := by
  unfold enter
  dsimp only
  split <;> simp

/-- The next fragment. If none is ready the next child of the innermost open node is taken, which is
entered unless it is raw text; a node without further children is closed. -/
def next? (s : FragmentStream) : Option (Fragment × FragmentStream) :=
  match s with
  | ⟨f :: ready, opened⟩ => some (f, ⟨ready, opened⟩)
  | ⟨[], []⟩ => none
  | ⟨[], (name, []) :: opened⟩ => some (.close name, ⟨[], opened⟩)
  | ⟨[], (name, o :: os) :: opened⟩ =>
    if o.label.raw then some (.text (o.label.text?.getD ""), ⟨[], (name, os) :: opened⟩)
    else next? (enter ⟨[], (name, os) :: opened⟩ o)
termination_by if s.ready.isEmpty then 1 else 0
decreasing_by simp [isEmpty_ready_enter]

/-- The fragments to come. -/
def remaining (s : FragmentStream) : List Fragment :=
  s.ready ++ s.opened.flatMap fun l => Outline.childFragments l.2 ++ [.close l.1]

theorem remaining_enter (s : FragmentStream) (o : Outline) : (s.enter o).remaining =
    s.ready ++ o.fragments ++ s.opened.flatMap fun l => Outline.childFragments l.2 ++ [.close l.1] := by
  obtain ⟨⟨type?, name, attributes, text?, raw⟩, children⟩ := o
  cases text? with
  | some text => simp [enter, remaining, Outline.fragments, Outline.label]
  | none =>
    cases children with
    | nil => simp [enter, remaining, Outline.fragments, Outline.label, Outline.children]
    | cons c cs => simp [enter, remaining, Outline.fragments, Outline.label, Outline.children]

/-- The next fragment is the first one to come. -/
theorem remaining_eq (s : FragmentStream) :
    s.remaining = match s.next? with
      | none => []
      | some (f, rest) => f :: rest.remaining := by
  induction s using next?.induct with
  | case1 f ready opened => rw [next?]; rfl
  | case2 => rw [next?]; rfl
  | case3 name opened => rw [next?]; simp [remaining, Outline.childFragments]
  | case4 name o os opened hraw =>
    rw [next?, if_pos hraw]
    simp [remaining, Outline.childFragments, hraw]
  | case5 name o os opened hraw ih =>
    rw [next?, if_neg hraw, ← ih, remaining_enter]
    simp [remaining, Outline.childFragments, hraw]

theorem remaining_of_none {s : FragmentStream} (h : s.next? = none) : s.remaining = [] := by
  rw [remaining_eq, h]

theorem remaining_of_some {s rest : FragmentStream} {f : Fragment} (h : s.next? = some (f, rest)) :
    s.remaining = f :: rest.remaining := by
  rw [remaining_eq, h]

/-- A stream as an iterator. -/
def iterator : Iterator FragmentStream Fragment where
  next? := next?
  bound s := s.remaining.length
  bound_lt h := by
    rw [remaining_of_some h]
    exact Nat.lt_succ_self _

/-- All fragments to come, one after the other. -/
def toList (s : FragmentStream) : List Fragment :=
  iterator.collect s

theorem toList_eq (s : FragmentStream) : s.toList = s.remaining :=
  Iterator.collect_eq remaining (fun _ => remaining_of_none) (fun _ _ _ => remaining_of_some) s

end FragmentStream

end Markup

/-- The fragments of an outline as they are produced one after the other. -/
def Outline.streamed (o : Outline) : List Markup.Fragment :=
  (Markup.FragmentStream.ofOutline o).toList

end CitationLocale
