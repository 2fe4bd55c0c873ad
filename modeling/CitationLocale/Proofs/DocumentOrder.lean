import CitationLocale.Node.Descent
import CitationLocale.Proofs.FragmentOrder
import CitationLocale.Proofs.Paths

/-!
# Document order

A visit of a tree comes to each position below the root once, in document order
(`Outline.visited_eq`). A stream of fragments takes one child after the other too: a visit that has
come as far as the stream (`FragmentStream.descent`) comes to this child next, and the child is
taken for its opening fragment (`FragmentStream.IsInside.step`). So both go through a tree in the
same order (`Node.visited_in_document_order`).
-/

namespace CitationLocale

open Markup

/-! ## Notes on a run -/

namespace Iterator

variable {σ α β : Type} (it : Iterator σ α) (note : σ → β)

/-- The same items, each with something of the state that yields it. -/
def noting : Iterator σ (β × α) where
  next? s := (it.next? s).map fun p => ((note s, p.1), p.2)
  bound := it.bound
  bound_lt h := by
    obtain ⟨p, hp, heq⟩ := Option.map_eq_some_iff.1 h
    obtain ⟨-, rfl⟩ := Prod.mk.inj heq
    exact it.bound_lt hp

theorem next?_noting_of_some {s rest : σ} {a : α} (h : it.next? s = some (a, rest)) :
    (it.noting note).next? s = some ((note s, a), rest) := by
  simp only [noting, h, Option.map_some]

theorem next?_noting_of_none {s : σ} (h : it.next? s = none) : (it.noting note).next? s = none := by
  simp only [noting, h, Option.map_none]

theorem map_snd_collect_noting (s : σ) :
    ((it.noting note).collect s).map Prod.snd = it.collect s := by
  refine (collect_eq (fun s => ((it.noting note).collect s).map Prod.snd) (fun s h => ?_)
    (fun s a rest h => ?_) s).symm
  · rw [collect_of_none (it.next?_noting_of_none note h), List.map_nil]
  · rw [collect_of_some (it.next?_noting_of_some note h), List.map_cons]

end Iterator

/-! ## Visits -/

namespace Outline

theorem withDescendants_eq_flatMap (os : List Outline) :
    withDescendants os = os.flatMap fun o => o :: o.descendants := by
  induction os with
  | nil => rfl
  | cons o os ih => rw [withDescendants, ih, List.flatMap_cons, List.cons_append]

theorem descendants_eq (o : Outline) : o.descendants = withDescendants o.children := by
  obtain ⟨label, children⟩ := o
  rfl

theorem visited_eq (o : Outline) : o.visited = o.descendants := by
  rw [visited, Descent.toList_eq, descendants_eq]
  simp [Descent.remaining, Descent.below]

end Outline

/-! ## Opening fragments -/

/-- Whether a fragment is a start tag or an empty tag. -/
def Markup.Fragment.isOpening : Fragment → Bool
  | .start _ _ | .empty _ _ => true
  | .close _ | .text _ => false

namespace Outline

/-- The fragment of an outline that comes before what is below it: an empty tag if nothing is. -/
def tag (o : Outline) : Fragment :=
  match o.label.text?, o.children with
  | none, [] => .empty o.label.name o.label.attributes.assignments
  | _, _ => .start o.label.name o.label.attributes.assignments

/-- The first fragment of an outline below another one: raw text is bare. -/
def opening (o : Outline) : Fragment :=
  if o.label.raw then .text (o.label.text?.getD "") else o.tag

/-- The fragments of an outline that are ready after its tag. -/
def ready (o : Outline) : List Fragment :=
  match o.label.text? with
  | some text => [.text text, .close o.label.name]
  | none => []

/-- The outline as an open node after its tag, if what is below it is still to come. -/
def opened (o : Outline) : List (String × List Outline) :=
  match o.label.text?, o.children with
  | none, c :: cs => [(o.label.name, c :: cs)]
  | _, _ => []

section

variable {o : Outline}

theorem isOpening_tag (o : Outline) : o.tag.isOpening = true := by
  unfold tag
  split <;> rfl

theorem isOpening_opening (o : Outline) : o.opening.isOpening = !o.label.raw := by
  unfold opening
  split_ifs with h
  · rw [h]; rfl
  · rw [isOpening_tag, eq_false_of_ne_true h]; rfl

theorem isOpening_of_mem_ready {f : Fragment} (h : f ∈ o.ready) : f.isOpening = false := by
  unfold ready at h
  split at h
  · simp only [List.mem_cons, List.not_mem_nil, or_false] at h
    rcases h with rfl | rfl <;> rfl
  · exact absurd h List.not_mem_nil

theorem children_of_mem_opened {l : String × List Outline} (h : l ∈ o.opened) :
    l.2 = o.children := by
  unfold opened at h
  split at h
  next hchildren => rw [List.mem_singleton.1 h, hchildren]
  · exact absurd h List.not_mem_nil

theorem flatMap_opened (h : o.label.text? ≠ none → o.children = []) :
    (o.opened.flatMap fun l => withDescendants l.2) = o.descendants := by
  unfold opened
  rw [descendants_eq]
  split
  next hchildren => rw [List.flatMap_singleton, hchildren]
  next hnot =>
    have hnil : o.children = [] := by
      by_contra hne
      obtain ⟨c, cs, hcs⟩ := List.exists_cons_of_ne_nil hne
      exact hnot c cs (by_contra fun htext => hne (h htext)) hcs
    rw [hnil]
    rfl

end

end Outline

namespace Markup.FragmentStream

/-- The child that is taken for the next fragment. -/
def taken? (s : FragmentStream) : Option Outline :=
  match s with
  | ⟨[], (_, o :: _) :: _⟩ => some o
  | _ => none

/-- What happens when a fragment is produced: which child is taken, and what the stream is after. -/
inductive Step : FragmentStream → Option Outline → Fragment → FragmentStream → Prop
  | ready (f : Fragment) (ready : List Fragment) (opened : List (String × List Outline)) :
      Step ⟨f :: ready, opened⟩ none f ⟨ready, opened⟩
  | close (name : String) (opened : List (String × List Outline)) :
      Step ⟨[], (name, []) :: opened⟩ none (.close name) ⟨[], opened⟩
  | bare (name : String) (o : Outline) (os : List Outline)
      (opened : List (String × List Outline)) : o.label.raw = true →
      Step ⟨[], (name, o :: os) :: opened⟩ (some o) o.opening ⟨[], (name, os) :: opened⟩
  | enter (name : String) (o : Outline) (os : List Outline)
      (opened : List (String × List Outline)) : o.label.raw = false →
      Step ⟨[], (name, o :: os) :: opened⟩ (some o) o.opening
        ⟨o.ready, o.opened ++ (name, os) :: opened⟩

theorem enter_eq (o : Outline) (opened : List (String × List Outline)) :
    enter ⟨[], opened⟩ o = ⟨o.tag :: o.ready, o.opened ++ opened⟩ := by
  obtain ⟨⟨type?, name, attributes, text?, raw⟩, children⟩ := o
  cases text? with
  | some text => rfl
  | none => cases children <;> rfl

theorem next?_ready (f : Fragment) (ready : List Fragment)
    (opened : List (String × List Outline)) :
    next? ⟨f :: ready, opened⟩ = some (f, ⟨ready, opened⟩) := by
  rw [next?]

theorem step_of_next? {s rest : FragmentStream} {f : Fragment} (h : s.next? = some (f, rest)) :
    Step s s.taken? f rest := by
  fun_cases next? s with
  | case1 g ready opened =>
    rw [next?_ready, Option.some.injEq, Prod.mk.injEq] at h
    obtain ⟨rfl, rfl⟩ := h
    exact .ready _ _ _
  | case2 => simp [next?] at h
  | case3 name opened =>
    rw [next?, Option.some.injEq, Prod.mk.injEq] at h
    obtain ⟨rfl, rfl⟩ := h
    exact .close _ _
  | case4 name o os opened hraw =>
    rw [next?, if_pos hraw, Option.some.injEq, Prod.mk.injEq] at h
    obtain ⟨rfl, rfl⟩ := h
    have hstep := Step.bare name o os opened hraw
    rwa [Outline.opening, if_pos hraw] at hstep
  | case5 name o os opened hraw =>
    rw [next?, if_neg hraw, enter_eq, next?_ready, Option.some.injEq, Prod.mk.injEq] at h
    obtain ⟨rfl, rfl⟩ := h
    have hstep := Step.enter name o os opened (eq_false_of_ne_true hraw)
    rwa [Outline.opening, if_neg hraw] at hstep

/-- The visit that has come as far as a stream: what is below the open nodes is still to come. -/
def descent (s : FragmentStream) : Descent :=
  ⟨s.opened.map Prod.snd⟩

/-- A stream of which the first fragment was produced: what is ready opens nothing, and what is to
come shows nodes. -/
structure IsInside (s : FragmentStream) : Prop where
  ready : ∀ f ∈ s.ready, f.isOpening = false
  opened : ∀ l ∈ s.opened, ∀ o ∈ l.2, ∃ n : Node, n.outline = o

end Markup.FragmentStream

namespace Node

variable (n : Node)

theorem children_eq_nil_of_text? {s : String} (h : n.text? = some s) : n.children = [] := by
  cases n with
  | element | terms => simp [text?] at h
  | text t => rfl
  | term t =>
    cases hcontent : t.content with
    | flat s => simp [children, Term.formNodes, Term.singleForm?, Term.multipleForm?, hcontent]
    | forms => simp [text?, Term.text?, hcontent] at h

theorem text?_ne_none_of_isRaw (h : n.isRaw = true) : n.text? ≠ none := by
  cases n with
  | text t => exact Option.some_ne_none _
  | element | term | terms => simp [isRaw] at h

theorem children_outline : n.outline.children = n.children.map outline := by
  rw [outline_eq, Outline.children]

/-- There is nothing below a node with text of its own. -/
theorem children_outline_of_text? (h : n.outline.label.text? ≠ none) : n.outline.children = [] := by
  obtain ⟨s, hs⟩ := Option.ne_none_iff_exists'.1 h
  rw [label_outline] at hs
  rw [children_outline, n.children_eq_nil_of_text? hs, List.map_nil]

theorem descendants_outline_of_raw (h : n.outline.label.raw = true) :
    n.outline.descendants = [] := by
  rw [label_outline] at h
  rw [Outline.descendants_eq, n.children_outline_of_text?]
  · rfl
  · rw [label_outline]
    exact n.text?_ne_none_of_isRaw h

end Node

namespace Markup.FragmentStream

/-- A node that was entered inside a stream. -/
theorem isInside_entered (n : Node) {opened : List (String × List Outline)}
    (hopened : ∀ l ∈ opened, ∀ o ∈ l.2, ∃ m : Node, m.outline = o) :
    IsInside ⟨n.outline.ready, n.outline.opened ++ opened⟩ := by
  refine ⟨fun f => Outline.isOpening_of_mem_ready, fun l hl o ho => ?_⟩
  rcases List.mem_append.1 hl with hl | hl
  · rw [Outline.children_of_mem_opened hl, n.children_outline] at ho
    obtain ⟨c, -, rfl⟩ := List.mem_map.1 ho
    exact ⟨c, rfl⟩
  · exact hopened l hl o ho

theorem remaining_entered (n : Node) (ready : List Fragment)
    (opened : List (String × List Outline)) :
    (descent ⟨ready, n.outline.opened ++ opened⟩).remaining =
      n.outline.descendants ++ (descent ⟨ready, opened⟩).remaining := by
  simp [descent, Descent.remaining, List.flatMap_map,
    Outline.flatMap_opened n.children_outline_of_text?]

theorem remaining_child (name : String) (o : Outline) (os : List Outline)
    (opened : List (String × List Outline)) (ready : List Fragment) :
    (descent ⟨ready, (name, o :: os) :: opened⟩).remaining =
      o :: (o.descendants ++ (descent ⟨ready, (name, os) :: opened⟩).remaining) := by
  simp [descent, Descent.remaining, Outline.withDescendants]

/-- One fragment: a visit comes next to the child that is taken for it, if there is one, and the
fragment is then the opening one of this child. -/
theorem IsInside.step {s rest : FragmentStream} {o? : Option Outline} {f : Fragment}
    (hs : s.IsInside) (h : Step s o? f rest) :
    rest.IsInside ∧ s.descent.remaining = o?.toList ++ rest.descent.remaining ∧
      (∀ o, o? = some o → f = o.opening) ∧ (o? = none → f.isOpening = false) := by
  obtain ⟨hready, hopened⟩ := hs
  cases h with
  | ready f ready opened =>
    rw [List.forall_mem_cons] at hready
    exact ⟨⟨hready.2, hopened⟩, rfl, nofun, fun _ => hready.1⟩
  | close name opened =>
    rw [List.forall_mem_cons] at hopened
    exact ⟨⟨hready, hopened.2⟩, rfl, nofun, fun _ => rfl⟩
  | bare name o os opened hraw =>
    rw [List.forall_mem_cons, List.forall_mem_cons] at hopened
    obtain ⟨⟨⟨n, rfl⟩, hos⟩, hopened⟩ := hopened
    refine ⟨⟨hready, List.forall_mem_cons.2 ⟨hos, hopened⟩⟩, ?_,
      fun o ho => congrArg _ (Option.some.inj ho), nofun⟩
    rw [remaining_child, n.descendants_outline_of_raw hraw]
    rfl
  | enter name o os opened hraw =>
    rw [List.forall_mem_cons, List.forall_mem_cons] at hopened
    obtain ⟨⟨⟨n, rfl⟩, hos⟩, hopened⟩ := hopened
    refine ⟨isInside_entered n (List.forall_mem_cons.2 ⟨hos, hopened⟩), ?_,
      fun o ho => congrArg _ (Option.some.inj ho), nofun⟩
    rw [remaining_child, remaining_entered]
    rfl

theorem remaining_descent_of_none {s : FragmentStream} (h : s.next? = none) :
    s.descent.remaining = [] := by
  have hremaining := remaining_of_none h
  simp only [remaining, List.append_eq_nil_iff, List.flatMap_eq_nil_iff] at hremaining
  rw [descent, Descent.remaining, List.flatMap_map, List.flatMap_eq_nil_iff]
  exact fun l hl => absurd (hremaining.2 l hl).2 (List.cons_ne_nil _ _)

/-- The fragments to come, each with the child that is taken for it. -/
def trace (s : FragmentStream) : List (Option Outline × Fragment) :=
  (iterator.noting taken?).collect s

theorem trace_of_some {s rest : FragmentStream} {f : Fragment} (h : s.next? = some (f, rest)) :
    s.trace = (s.taken?, f) :: rest.trace :=
  Iterator.collect_of_some (iterator.next?_noting_of_some taken? h)

/-- Every child that a visit comes to is taken, one after the other, for its opening fragment. -/
theorem IsInside.trace {s : FragmentStream} (hs : s.IsInside) :
    (s.trace.filterMap fun e => e.1.map fun o => (o, e.2)) =
        s.descent.remaining.map (fun o => (o, o.opening)) ∧
      ∀ e ∈ s.trace, e.1 = none → e.2.isOpening = false := by
  induction s using Iterator.collect.induct iterator with
  | case1 s h =>
    rw [FragmentStream.trace, Iterator.collect_of_none (iterator.next?_noting_of_none taken? h),
      remaining_descent_of_none h]
    exact ⟨rfl, List.forall_mem_nil _⟩
  | case2 s f rest h ih =>
    obtain ⟨hrest, hremaining, hopening, hother⟩ := hs.step (step_of_next? h)
    obtain ⟨htaken, hothers⟩ := ih hrest
    rw [trace_of_some h, hremaining]
    refine ⟨?_, List.forall_mem_cons.2 ⟨hother, hothers⟩⟩
    cases ho : s.taken? with
    | none => exact htaken
    | some o =>
      rw [hopening o ho]
      exact congrArg _ htaken

/-- The opening fragments of a trace are among those for which a child is taken. -/
theorem filter_isOpening {es : List (Option Outline × Fragment)}
    (h : ∀ e ∈ es, e.1 = none → e.2.isOpening = false) :
    (es.map Prod.snd).filter Fragment.isOpening =
      ((es.filterMap fun e => e.1.map fun o => (o, e.2)).map Prod.snd).filter
        Fragment.isOpening := by
  induction es with
  | nil => rfl
  | cons e es ih =>
    obtain ⟨he, hes⟩ := List.forall_mem_cons.1 h
    obtain ⟨o?, f⟩ := e
    cases o? with
    | none =>
      rw [List.map_cons, List.filter_cons_of_neg (by simp [he rfl]), ih hes]
      rfl
    | some o =>
      rw [List.map_cons, List.filter_cons, ih hes]
      exact (List.filter_cons ..).symm

theorem ofOutline_eq (o : Outline) : ofOutline o = ⟨o.tag :: o.ready, o.opened ++ []⟩ :=
  enter_eq o []

end Markup.FragmentStream

namespace Node

variable (n : Node)

theorem visited_eq_flatMap : n.outline.visited =
    n.children.flatMap fun c => c.outline :: c.outline.visited := by
  simp only [Outline.visited_eq]
  rw [Outline.descendants_eq, children_outline, Outline.withDescendants_eq_flatMap,
    List.flatMap_map]

theorem streamed_eq_map_trace :
    n.outline.streamed = (FragmentStream.ofOutline n.outline).trace.map Prod.snd :=
  (FragmentStream.iterator.map_snd_collect_noting FragmentStream.taken? _).symm

theorem trace_outline : ∃ rest : List (Option Outline × Fragment),
    (FragmentStream.ofOutline n.outline).trace = (none, n.outline.tag) :: rest ∧
      n.outline.streamed = n.outline.tag :: rest.map Prod.snd ∧
      (rest.filterMap fun e => e.1.map fun o => (o, e.2)) =
        n.outline.visited.map (fun o => (o, o.opening)) ∧
      ∀ e ∈ rest, e.1 = none → e.2.isOpening = false := by
  have hinside : FragmentStream.IsInside ⟨n.outline.ready, n.outline.opened ++ []⟩ :=
    FragmentStream.isInside_entered n fun l hl => absurd hl List.not_mem_nil
  have htrace : (FragmentStream.ofOutline n.outline).trace = (none, n.outline.tag) ::
      FragmentStream.trace ⟨n.outline.ready, n.outline.opened ++ []⟩ := by
    rw [FragmentStream.ofOutline_eq]
    exact FragmentStream.trace_of_some (FragmentStream.next?_ready _ _ _)
  refine ⟨_, htrace, ?_, ?_, hinside.trace.2⟩
  · rw [streamed_eq_map_trace, htrace, List.map_cons]
  · rw [hinside.trace.1, FragmentStream.remaining_entered, Outline.visited_eq]
    simp [FragmentStream.descent, Descent.remaining]

theorem visited_term (t : Term) : (Node.term t).outline.visited =
    (t.singleForm?.map fun f => (f.node .single).outline).toList ++
      (t.multipleForm?.map fun f => (f.node .multiple).outline).toList := by
  rw [Outline.visited_eq, outline, Term.outline, Term.formNodes]
  cases t.singleForm? <;> cases t.multipleForm? <;> rfl

/-- The start tags and empty tags after the first one. -/
theorem filter_isOpening_streamed : n.outline.streamed.tail.filter Fragment.isOpening =
    (n.outline.visited.filter fun o => !o.label.raw).map Outline.tag := by
  obtain ⟨rest, -, hstreamed, htaken, hothers⟩ := n.trace_outline
  have hopening : (n.outline.visited.map Outline.opening).filter Fragment.isOpening =
      (n.outline.visited.filter fun o => !o.label.raw).map Outline.opening := by
    rw [List.filter_map]
    simp only [Function.comp_def, Outline.isOpening_opening]
  rw [hstreamed, List.tail_cons, FragmentStream.filter_isOpening hothers, htaken, List.map_map]
  refine hopening.trans (List.map_congr_left fun o ho => ?_)
  rw [Outline.opening, if_neg (by simpa using (List.mem_filter.1 ho).2)]

/-- A visit of everything below a node ends and comes to each position once, in the order of the
paths: a node, then everything below it, then its next sibling, and the singular of a term before
its plural. Nodes are opened in this order when the fragments of the tree are produced: after the
tag of the root, every node that is taken comes with its opening fragment, and all other fragments
are end tags and texts. -/
theorem visited_in_document_order :
    Descent.iterator.Yields (.below n.outline) n.outline.visited ∧
      n.outline.visited.map some = n.outline.positions.map n.outline.at? ∧
      (∀ path, path ∈ n.outline.positions ↔ path ≠ [] ∧ (n.outline.at? path).isSome) ∧
      n.outline.positions.Pairwise (· < ·) ∧
      n.outline.visited = (n.children.flatMap fun c => c.outline :: c.outline.visited) ∧
      (∀ t : Term, n = .term t → n.outline.visited =
        (t.singleForm?.map fun f => (f.node .single).outline).toList ++
          (t.multipleForm?.map fun f => (f.node .multiple).outline).toList) ∧
      (∃ rest : List (Option Outline × Fragment),
        (FragmentStream.ofOutline n.outline).trace = (none, n.outline.tag) :: rest ∧
          n.outline.streamed = n.outline.tag :: rest.map Prod.snd ∧
          (rest.filterMap fun e => e.1.map fun o => (o, e.2)) =
            n.outline.visited.map (fun o => (o, o.opening)) ∧
          ∀ e ∈ rest, e.1 = none → e.2.isOpening = false) ∧
      n.outline.streamed.tail.filter Fragment.isOpening =
        (n.outline.visited.filter fun o => !o.label.raw).map Outline.tag := by
  refine ⟨Iterator.yields_collect _, ?_, fun path => Outline.mem_positions_iff,
    n.outline.pairwise_positions, n.visited_eq_flatMap, ?_, ?_, n.filter_isOpening_streamed⟩
  · rw [Outline.visited_eq, Outline.map_at?_positions]
  · rintro t rfl
    exact visited_term t
  · exact n.trace_outline

/-- The forms of a term are visited and opened one after the other, each with its own record. -/
theorem visited_in_document_order_of_forms :
    let t : Term :=
      ⟨.empty, .forms (some ⟨.ofPairs [("a", "b")], "page"⟩) (some (.ofText .multiple "pages"))⟩
    (Node.term t).outline.visited =
        [(TextNode.mk (some (.builtin .single)) (.ofPairs [("a", "b")]) "page").outline,
          (TextNode.typed (.builtin .multiple) .empty "pages").outline] ∧
      (Node.term t).outline.streamed.tail.filter Fragment.isOpening =
        [.start "single" [("a", "b")], .start "multiple" []] := by
  intro t
  have horder := visited_in_document_order (.term t)
  have hvisited := horder.2.2.2.2.2.1 t rfl
  refine ⟨hvisited, horder.2.2.2.2.2.2.2.trans ?_⟩
  rw [hvisited]
  rfl

end Node

end CitationLocale
