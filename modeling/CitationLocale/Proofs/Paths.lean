import CitationLocale.Proofs.WrittenTree

/-!
# Positions in a tree

The paths that lead from the root of an outline to everything below it (`Outline.positions`) are
strictly ordered, number by number, and what they lead to, one after the other, is everything below
the root in document order (`Outline.map_at?_positions`).
-/

namespace CitationLocale.Outline

mutual

/-- The paths to everything below the root in document order. -/
def positions : Outline → List (List Nat)
  | node _ children => positionsFrom 0 children

/-- The paths to some children, of which the first has an index, and to everything below them. -/
def positionsFrom (i : Nat) : List Outline → List (List Nat)
  | [] => []
  | o :: os => [i] :: (o.positions.map (i :: ·) ++ positionsFrom (i + 1) os)

end

theorem at?_cons (o : Outline) (i : Nat) (path : List Nat) :
    o.at? (i :: path) = (o.children[i]?).bind fun c => c.at? path :=
  rfl

theorem mem_positionsFrom_iff {i : Nat} {os : List Outline} {path : List Nat} :
    path ∈ positionsFrom i os ↔ ∃ j o p, os[j]? = some o ∧ path = (i + j) :: p ∧
      (p = [] ∨ p ∈ o.positions) := by
  induction os generalizing i with
  | nil => simp [positionsFrom]
  | cons o os ih =>
    rw [positionsFrom, List.mem_cons, List.mem_append, List.mem_map, ih]
    constructor
    · rintro (rfl | ⟨p, hp, rfl⟩ | ⟨j, c, p, hj, rfl, hp⟩)
      · exact ⟨0, o, [], rfl, rfl, .inl rfl⟩
      · exact ⟨0, o, p, rfl, rfl, .inr hp⟩
      · exact ⟨j + 1, c, p, hj, by rw [Nat.add_right_comm, Nat.add_assoc], hp⟩
    · rintro ⟨j, c, p, hj, rfl, hp⟩
      cases j with
      | zero =>
        obtain rfl := Option.some.inj hj
        rcases hp with rfl | hp
        · exact .inl rfl
        · exact .inr (.inl ⟨p, hp, rfl⟩)
      | succ j => exact .inr (.inr ⟨j, c, p, hj, by rw [Nat.add_right_comm, Nat.add_assoc], hp⟩)

/-- The positions are the paths that lead somewhere below the root. -/
theorem mem_positions_iff {o : Outline} {path : List Nat} :
    path ∈ o.positions ↔ path ≠ [] ∧ (o.at? path).isSome := by
  induction o using Outline.inductionOn generalizing path with
  | node label os ih =>
    rw [positions, mem_positionsFrom_iff]
    cases path with
    | nil => simp
    | cons i p =>
      rw [at?_cons, children]
      constructor
      · rintro ⟨j, o, p', hj, hpath, hp⟩
        obtain ⟨rfl, rfl⟩ := List.cons.inj hpath
        rw [Nat.zero_add, hj]
        refine ⟨List.cons_ne_nil _ _, ?_⟩
        rcases hp with rfl | hp
        · rfl
        · exact ((ih o (List.mem_of_getElem? hj)).1 hp).2
      · rintro ⟨-, hsome⟩
        obtain ⟨m, hm⟩ := Option.isSome_iff_exists.1 hsome
        obtain ⟨o, hj, ho⟩ := Option.bind_eq_some_iff.1 hm
        refine ⟨i, o, p, hj, by rw [Nat.zero_add], ?_⟩
        rw [ih o (List.mem_of_getElem? hj), ho]
        exact (Decidable.em (p = [])).imp_right fun hp => ⟨hp, rfl⟩

theorem pairwise_positionsFrom {i : Nat} {os : List Outline}
    (h : ∀ o ∈ os, o.positions.Pairwise (· < ·)) : (positionsFrom i os).Pairwise (· < ·) := by
  induction os generalizing i with
  | nil => exact .nil
  | cons o os ih =>
    rw [List.forall_mem_cons] at h
    have hlater : ∀ q ∈ positionsFrom (i + 1) os, ∀ p, i :: p < q := by
      intro q hq p
      obtain ⟨j, -, p', -, rfl, -⟩ := mem_positionsFrom_iff.1 hq
      exact List.cons_lt_cons_iff.2 (.inl (by omega))
    rw [positionsFrom, List.pairwise_cons, List.pairwise_append, List.pairwise_map]
    refine ⟨fun q hq => ?_, h.1.imp fun hp => List.cons_lt_cons_iff.2 (.inr ⟨rfl, hp⟩), ih h.2, ?_⟩
    · rcases List.mem_append.1 hq with hq | hq
      · obtain ⟨p, hp, rfl⟩ := List.mem_map.1 hq
        obtain ⟨k, p, rfl⟩ := List.exists_cons_of_ne_nil (mem_positions_iff.1 hp).1
        exact List.cons_lt_cons_iff.2 (.inr ⟨rfl, List.nil_lt_cons k p⟩)
      · exact hlater q hq []
    · intro p hp q hq
      obtain ⟨p, -, rfl⟩ := List.mem_map.1 hp
      exact hlater q hq p

/-- No position comes twice or after a later one. -/
theorem pairwise_positions (o : Outline) : o.positions.Pairwise (· < ·) := by
  induction o using Outline.inductionOn with
  | node label os ih => exact pairwise_positionsFrom ih

theorem map_at?_positionsFrom (label : Label) (before : List Outline) {os : List Outline}
    (h : ∀ o ∈ os, o.positions.map o.at? = o.descendants.map some) :
    (positionsFrom before.length os).map (node label (before ++ os)).at? =
      (withDescendants os).map some := by
  induction os generalizing before with
  | nil => rfl
  | cons o os ih =>
    rw [List.forall_mem_cons] at h
    have hchild : (before ++ o :: os)[before.length]? = some o := by simp
    have hbelow : (o.positions.map (before.length :: ·)).map (node label (before ++ o :: os)).at? =
        o.descendants.map some := by
      rw [List.map_map, ← h.1]
      refine List.map_congr_left fun p _ => ?_
      rw [Function.comp_apply, at?_cons, children, hchild, Option.bind_some]
    have hrest := ih (before ++ [o]) h.2
    rw [List.append_assoc, List.singleton_append, List.length_append, List.length_singleton] at hrest
    rw [positionsFrom, withDescendants, List.map_cons, List.map_append, hbelow, hrest, at?_cons,
      children, hchild, List.map_cons, List.map_append]
    rfl

/-- What is below the root is what its positions lead to. -/
theorem map_at?_positions (o : Outline) : o.positions.map o.at? = o.descendants.map some := by
  induction o using Outline.inductionOn with
  | node label os ih => exact map_at?_positionsFrom label [] ih

end CitationLocale.Outline
