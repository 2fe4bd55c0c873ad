/-!
# Producing items one at a time

An iterator yields the next item and the state after it, or ends. It comes with a bound on the
number of items that are still to come, so that collecting all of them ends.
-/

namespace CitationLocale

structure Iterator (σ α : Type) where
  next? : σ → Option (α × σ)
  /-- A number that gets smaller with every item. -/
  bound : σ → Nat
  bound_lt : ∀ {s a rest}, next? s = some (a, rest) → bound rest < bound s

namespace Iterator

variable {σ α : Type} (it : Iterator σ α)

/-- All items that are yielded from a state on. -/
def collect (s : σ) : List α :=
  match _h : it.next? s with
  | none => []
  | some (a, rest) => a :: collect rest
termination_by it.bound s
decreasing_by exact it.bound_lt ‹it.next? s = some _›

/-- Asking for the next item again and again yields these items and then ends. -/
inductive Yields : σ → List α → Prop
  | done {s : σ} : it.next? s = none → Yields s []
  | item {s rest : σ} {a : α} {as : List α} :
      it.next? s = some (a, rest) → Yields rest as → Yields s (a :: as)

variable {it} {s rest : σ} {a : α}

theorem collect_of_none (h : it.next? s = none) : it.collect s = [] := by
  rw [collect]
  split <;> simp_all

theorem collect_of_some (h : it.next? s = some (a, rest)) :
    it.collect s = a :: it.collect rest := by
  rw [collect]
  split <;> simp_all

/-- Every run ends, with the items that are collected. -/
theorem yields_collect (s : σ) : it.Yields s (it.collect s) := by
  induction s using collect.induct it with
  | case1 s h => rw [collect_of_none h]; exact .done h
  | case2 s a rest h ih => rw [collect_of_some h]; exact .item h ih

/-- The items to come are known if the first of them is the next item at every state. -/
theorem collect_eq (remaining : σ → List α) (hnone : ∀ s, it.next? s = none → remaining s = [])
    (hsome : ∀ s a rest, it.next? s = some (a, rest) → remaining s = a :: remaining rest) (s : σ) :
    it.collect s = remaining s := by
  induction s using collect.induct it with
  | case1 s h => rw [collect_of_none h, hnone s h]
  | case2 s a rest h ih => rw [collect_of_some h, ih, hsome s a rest h]

end Iterator

end CitationLocale
