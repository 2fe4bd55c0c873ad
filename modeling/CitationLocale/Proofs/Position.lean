import CitationLocale.Node.Position
import CitationLocale.Proofs.Tree

/-!
# Edits inside a tree

What holds everywhere in a tree still holds everywhere after a part of it was replaced by one in
which it holds (`Node.Everywhere.replaceAt?`). An edit of attributes leaves the shape of the tree
as it is: each node differs from what it was at most in its own attributes and in those below it, so
what such a difference does not touch holds everywhere as before
(`Node.Everywhere.mapAttributesAt?`).
-/

namespace CitationLocale.Node

variable {P : Node → Prop} {f : Attributes → Attributes} {n n' m : Node} {path : List Nat}

/-- A property that does not depend on the children of an element holds everywhere after a node was
replaced, if it held everywhere before and holds everywhere in the new node. -/
theorem Everywhere.replaceAt?
    (hP : ∀ type? name attributes ns ns', P (.element type? name attributes ns) →
      P (.element type? name attributes ns'))
    (h : n.Everywhere P) (hm : m.Everywhere P) (hn : n.replaceAt? path m = some n') :
    n'.Everywhere P := by
  induction path generalizing n n' with
  | nil =>
    obtain rfl : m = n' := by cases n <;> exact Option.some.inj hn
    exact hm
  | cons i path ih =>
    cases n with
    | element type? name attributes children =>
      obtain ⟨child, hchild, hn⟩ := Option.bind_eq_some_iff.1 hn
      obtain ⟨child', hchild', hn⟩ := Option.bind_eq_some_iff.1 hn
      obtain rfl := Option.some.inj hn
      refine .intro (hP _ _ _ _ _ h.root) fun c hc => ?_
      rcases List.mem_or_eq_of_mem_set hc with hc | rfl
      · exact h.of_mem c hc
      · exact ih (h.of_mem child (List.mem_of_getElem? hchild)) hchild'
    | text | term | terms => simp [Node.replaceAt?] at hn

/-! ## Edits of attributes -/

/-- What a node is apart from its attributes and its children. -/
def frame (n : Node) : Kind × Option NodeType × String × Option String :=
  (n.kind, n.type?, n.name, n.text?)

/-- A node differs from another one at most by an edit of its own attributes and below its
children. -/
structure IsRetouched (f : Attributes → Attributes) (n n' : Node) : Prop where
  frame : n'.frame = n.frame
  children : n'.children.map Node.frame = n.children.map Node.frame
  attributes : n'.attributes = n.attributes ∨ n'.attributes = f n.attributes

theorem children_mapAttributes (n : Node) : (n.mapAttributes f).children = n.children := by
  cases n <;> rfl

theorem isRetouched_mapAttributes (n : Node) : IsRetouched f n (n.mapAttributes f) := by
  refine ⟨?_, by rw [children_mapAttributes], .inr ?_⟩
  · cases n <;> rfl
  · cases n <;> rfl

theorem map_frame_set {ns : List Node} {i : Nat} {c c' : Node} (hc : ns[i]? = some c)
    (hframe : c'.frame = c.frame) : (ns.set i c').map frame = ns.map frame := by
  obtain ⟨hi, rfl⟩ := List.getElem?_eq_some_iff.1 hc
  have hself := List.set_getElem_self (by simpa using hi : i < (ns.map frame).length)
  rw [List.getElem_map] at hself
  rw [List.map_set, hframe, hself]

theorem frame_mapAttributesAt? (hn : n.mapAttributesAt? f path = some n') : n'.frame = n.frame := by
  cases path with
  | nil =>
    obtain rfl : n.mapAttributes f = n' := by cases n <;> exact Option.some.inj hn
    exact (isRetouched_mapAttributes n).frame
  | cons i path =>
    cases n with
    | element type? name attributes children =>
      obtain ⟨child, -, hn⟩ := Option.bind_eq_some_iff.1 hn
      obtain ⟨child', -, hn⟩ := Option.bind_eq_some_iff.1 hn
      obtain rfl := Option.some.inj hn
      rfl
    | text | term => simp [mapAttributesAt?] at hn
    | terms table =>
      cases path with
      | nil =>
        obtain ⟨t, -, hn⟩ := Option.bind_eq_some_iff.1 hn
        obtain rfl := Option.some.inj hn
        rfl
      | cons j path => simp [mapAttributesAt?] at hn

theorem Everywhere.mapAttributes (hP : ∀ m m', IsRetouched f m m' → P m → P m')
    (h : n.Everywhere P) : (n.mapAttributes f).Everywhere P := by
  refine .intro (hP n _ (isRetouched_mapAttributes n) h.root) ?_
  rw [children_mapAttributes]
  exact h.of_mem

/-- A property that an edit keeps at every single node holds everywhere after an edit at a path. -/
theorem Everywhere.mapAttributesAt? (hP : ∀ m m', IsRetouched f m m' → P m → P m')
    (h : n.Everywhere P) (hn : n.mapAttributesAt? f path = some n') : n'.Everywhere P := by
  induction path generalizing n n' with
  | nil =>
    obtain rfl : n.mapAttributes f = n' := by cases n <;> exact Option.some.inj hn
    exact h.mapAttributes hP
  | cons i path ih =>
    cases n with
    | element type? name attributes children =>
      obtain ⟨child, hchild, hn⟩ := Option.bind_eq_some_iff.1 hn
      obtain ⟨child', hchild', hn⟩ := Option.bind_eq_some_iff.1 hn
      obtain rfl := Option.some.inj hn
      have hframes := map_frame_set hchild (frame_mapAttributesAt? hchild')
      have hnode : IsRetouched f (.element type? name attributes children)
          (.element type? name attributes (children.set i child')) := ⟨rfl, hframes, .inl rfl⟩
      refine .intro (hP _ _ hnode h.root) fun c hc => ?_
      rcases List.mem_or_eq_of_mem_set hc with hc | rfl
      · exact h.of_mem c hc
      · exact ih (h.of_mem child (List.mem_of_getElem? hchild)) hchild'
    | text | term => simp [Node.mapAttributesAt?] at hn
    | terms table =>
      cases path with
      | cons j path => simp [Node.mapAttributesAt?] at hn
      | nil =>
        obtain ⟨t, ht, hn⟩ := Option.bind_eq_some_iff.1 hn
        obtain rfl := Option.some.inj hn
        have hterm : (table.terms.map Node.term)[i]? = some (.term t) := by simp [ht]
        have hnode : IsRetouched f (.terms table)
            (.terms ⟨table.attributes, table.terms.set i ⟨f t.attributes, t.content⟩⟩) := by
          refine ⟨rfl, ?_, .inl rfl⟩
          rw [children, List.map_set]
          exact map_frame_set hterm rfl
        refine .intro (hP _ _ hnode h.root) fun c hc => ?_
        obtain ⟨u, hu, rfl⟩ := List.mem_map.1 hc
        rcases List.mem_or_eq_of_mem_set hu with hu | rfl
        · exact h.of_mem _ (List.mem_map_of_mem hu)
        · exact (h.of_mem _ (List.mem_of_getElem? hterm)).mapAttributes hP

end CitationLocale.Node
