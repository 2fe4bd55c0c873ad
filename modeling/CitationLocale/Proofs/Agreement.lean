import Mathlib.Data.List.Perm.Subperm
import CitationLocale.Proofs.Record

/-!
# When records agree

Open records agree if they hold the same entries in any order (`Attributes.agrees_iff_perm`); as
soon as one of two records is fixed they agree only if their entries are the same
(`Attributes.agrees_iff_eq`). So agreement is symmetric on all records that the operations make
(`Attributes.Built.isSound`, `Attributes.agrees_comm`), and among records with one schema those that
agree with each other agree with the same records (`Attributes.agrees_congr`). It is transitive
between records of one kind, and between an open and a fixed one just when their names stand in the
same order (`Attributes.agrees_refl_symm_trans_iff`).
-/

namespace CitationLocale.Attributes

/-- The records that the operations on records make. -/
inductive Built : Attributes → Prop
  | empty : Built empty
  | blank (schema : Schema) : Built (blank schema)
  | defaults (schema : Schema) : Built (defaults schema)
  | set {r : Attributes} (key value : String) : Built r → Built (r.set key value)
  | clear {r : Attributes} (key : String) : Built r → Built (r.clear key)
  | extend {r : Attributes} (pairs : List (String × String)) : Built r → Built (r.extend pairs)
  | merge {r : Attributes} (other : Attributes) : Built r → Built (r.merge other)
  | mergeJson {r r' : Attributes} (value : Json) : Built r → r.mergeJson value = .ok r' → Built r'

theorem isSound_empty : empty.IsSound := by
  refine ⟨fun _ => List.nodup_nil, fun schema h => ?_⟩
  simp [empty] at h

theorem isSound_blank (schema : Schema) : (blank schema).IsSound := by
  refine ⟨fun h => by simp [blank] at h, fun other h => ?_⟩
  obtain rfl : schema = other := Option.some.inj h
  simp [Attributes.keys, blank]

theorem Built.isSound {r : Attributes} (h : r.Built) : r.IsSound := by
  induction h with
  | empty => exact isSound_empty
  | blank schema => exact isSound_blank schema
  | defaults schema => exact isSound_defaults schema
  | set key value _ ih => exact ih.set key value
  | clear key _ ih => exact ih.clear key
  | extend pairs _ ih => exact ih.extend pairs
  | merge other _ ih => exact ih.extend other.assigned
  | mergeJson value _ h ih =>
    cases value with
    | object members =>
      obtain rfl := Except.ok.inj h
      exact ih.extend _
    | null | bool | number | string | array => simp [Attributes.mergeJson] at h

/-! ## Agreement -/

variable {a b c : Attributes}

theorem agrees_iff_eq (h : ¬ (a.schema? = none ∧ b.schema? = none)) :
    a.agrees b = true ↔ a.entries = b.entries := by
  have hfixed : (a.schema?.isNone && b.schema?.isNone) = false := by
    simpa [← Bool.not_eq_true] using h
  rw [agrees, hfixed]
  simp

/-- Open records agree if they hold the same entries in any order. -/
theorem agrees_iff_perm (ha : a.IsSound) (hb : b.IsSound) (haopen : a.schema? = none)
    (hbopen : b.schema? = none) : a.agrees b = true ↔ a.entries.Perm b.entries := by
  have hagrees : a.agrees b = true ↔ a.entries.length = b.entries.length ∧
      ∀ e ∈ a.entries, b.entries.lookup e.1 = some e.2 := by
    simp [agrees, haopen, hbopen]
  rw [hagrees]
  constructor
  · rintro ⟨hlength, hfound⟩
    have hsub : a.entries ⊆ b.entries := fun e he => mem_of_lookup (hfound e he)
    have hnodup : a.entries.Nodup := (ha.nodup haopen).of_map
    exact (List.subperm_of_subset hnodup hsub).perm_of_length_le (Nat.le_of_eq hlength.symm)
  · intro h
    exact ⟨h.length_eq, fun e he => lookup_of_mem (hb.nodup hbopen) (h.subset he)⟩

/-- Whether two records agree does not depend on their order. -/
theorem agrees_comm (ha : a.IsSound) (hb : b.IsSound) : a.agrees b = b.agrees a := by
  rw [Bool.eq_iff_iff]
  by_cases h : a.schema? = none ∧ b.schema? = none
  · rw [agrees_iff_perm ha hb h.1 h.2, agrees_iff_perm hb ha h.2 h.1]
    exact List.perm_comm
  · rw [agrees_iff_eq h, agrees_iff_eq fun h' => h h'.symm]
    exact eq_comm

/-- Records with one schema that agree with each other agree with the same records of this
schema. -/
theorem agrees_congr (ha : a.IsSound) (hb : b.IsSound) (hc : c.IsSound)
    (hab : a.schema? = b.schema?) (hac : a.schema? = c.schema?) (h : a.agrees b = true) :
    a.agrees c = b.agrees c := by
  rw [Bool.eq_iff_iff]
  by_cases hopen : a.schema? = none
  · have hbopen : b.schema? = none := hab ▸ hopen
    have hcopen : c.schema? = none := hac ▸ hopen
    rw [agrees_iff_perm ha hb hopen hbopen] at h
    rw [agrees_iff_perm ha hc hopen hcopen, agrees_iff_perm hb hc hbopen hcopen]
    exact h.congr_left c.entries
  · rw [agrees_iff_eq fun h' => hopen h'.1] at h
    rw [agrees_iff_eq fun h' => hopen h'.1, agrees_iff_eq fun h' => hopen (hab.trans h'.1), h]

/-! ## Passing agreement on -/

/-- Records that agree hold the same entries, in some order. -/
theorem perm_of_agrees (ha : a.IsSound) (hb : b.IsSound) (h : a.agrees b = true) :
    a.entries.Perm b.entries := by
  by_cases hopen : a.schema? = none ∧ b.schema? = none
  · exact (agrees_iff_perm ha hb hopen.1 hopen.2).1 h
  · rw [(agrees_iff_eq hopen).1 h]

/-- Entries with distinct names are determined by the order of the names. -/
theorem entries_eq_of_perm (hnodup : a.keys.Nodup) (hkeys : a.keys = b.keys)
    (h : a.entries.Perm b.entries) : a.entries = b.entries := by
  have hbnodup : b.keys.Nodup := hkeys ▸ hnodup
  apply eq_of_lookup_eq hkeys hnodup
  intro k hk
  obtain ⟨⟨k, v?⟩, he, rfl⟩ := List.mem_map.1 hk
  have hfound : b.entries.lookup k = some v? := lookup_of_mem hbnodup (h.subset he)
  exact (lookup_of_mem hnodup he).trans hfound.symm

theorem isFixed_eq_false_iff : a.isFixed = false ↔ a.schema? = none := by
  rw [isFixed, Option.isSome_eq_false_iff, Option.isNone_iff_eq_none]

/-- Agreement of records, however they were built, is reflexive and symmetric. It passes from one
record over a second to a third if the first and the third are both open or both fixed; if one of
them is open and the other one is fixed, it does just when their names stand in the same order. -/
theorem agrees_refl_symm_trans_iff (a b c : Attributes) (ha : a.Built) (hb : b.Built)
    (hc : c.Built) : a.agrees a = true ∧ (a.agrees b = true → b.agrees a = true) ∧
      (a.agrees b = true → b.agrees c = true →
        (a.agrees c = true ↔ a.isFixed = c.isFixed ∨ a.keys = c.keys)) := by
  have ha := ha.isSound
  have hb := hb.isSound
  have hc := hc.isSound
  refine ⟨ha.agrees_self, fun h => agrees_comm ha hb ▸ h, fun hab hbc => ?_⟩
  have hperm : a.entries.Perm c.entries :=
    (perm_of_agrees ha hb hab).trans (perm_of_agrees hb hc hbc)
  by_cases hfixed : a.isFixed = c.isFixed
  · refine iff_of_true ?_ (.inl hfixed)
    by_cases hopen : a.schema? = none
    · have hcopen : c.schema? = none := by
        rwa [← isFixed_eq_false_iff, ← hfixed, isFixed_eq_false_iff]
      exact (agrees_iff_perm ha hc hopen hcopen).2 hperm
    · have hcfixed : ¬ c.schema? = none := by
        rwa [← isFixed_eq_false_iff, ← hfixed, isFixed_eq_false_iff]
      -- the second record agrees with fixed ones on both sides, so it holds the same entries
      rw [agrees_iff_eq fun h => hopen h.1] at hab ⊢
      rw [agrees_iff_eq fun h => hcfixed h.2] at hbc
      exact hab.trans hbc
  · have hmixed : ¬ (a.schema? = none ∧ c.schema? = none) := by
      rintro ⟨haopen, hcopen⟩
      exact hfixed ((isFixed_eq_false_iff.2 haopen).trans (isFixed_eq_false_iff.2 hcopen).symm)
    rw [agrees_iff_eq hmixed, or_iff_right hfixed]
    refine ⟨fun h => congrArg (List.map Prod.fst) h, fun hkeys => ?_⟩
    by_cases hopen : a.schema? = none
    · exact entries_eq_of_perm (ha.nodup hopen) hkeys hperm
    · have hcopen : c.schema? = none := by
        rw [← isFixed_eq_false_iff, Bool.not_eq_false] at hopen
        rw [← isFixed_eq_false_iff]
        simpa [hopen] using hfixed
      exact entries_eq_of_perm (hkeys ▸ hc.nodup hcopen) hkeys hperm

/-- A fixed record agrees over an open one with another open one in its order. -/
theorem agrees_of_fixed_over_open :
    ((blank [⟨"x", none⟩, ⟨"y", none⟩]).extend [("x", "1"), ("y", "2")]).agrees
        (ofPairs [("x", "1"), ("y", "2")]) = true ∧
      (ofPairs [("x", "1"), ("y", "2")]).agrees ((ofPairs [("x", "0"), ("y", "2")]).set "x" "1") =
        true ∧
      ((blank [⟨"x", none⟩, ⟨"y", none⟩]).extend [("x", "1"), ("y", "2")]).agrees
        ((ofPairs [("x", "0"), ("y", "2")]).set "x" "1") = true := by
  obtain ⟨-, -, htrans⟩ := agrees_refl_symm_trans_iff
    ((blank [⟨"x", none⟩, ⟨"y", none⟩]).extend [("x", "1"), ("y", "2")])
    (ofPairs [("x", "1"), ("y", "2")]) ((ofPairs [("x", "0"), ("y", "2")]).set "x" "1")
    (.extend _ (.blank _)) (.extend _ .empty) (.set _ _ (.extend _ .empty))
  have hfirst : ((blank [⟨"x", none⟩, ⟨"y", none⟩]).extend [("x", "1"), ("y", "2")]).agrees
      (ofPairs [("x", "1"), ("y", "2")]) = true := by
    decide
  have hsecond : (ofPairs [("x", "1"), ("y", "2")]).agrees
      ((ofPairs [("x", "0"), ("y", "2")]).set "x" "1") = true := by
    decide
  exact ⟨hfirst, hsecond, (htrans hfirst hsecond).2 (.inr (by decide))⟩

/-- A fixed record agrees with an open one in its order, this one with an open one in another order,
and the fixed record does not agree with the latter. -/
theorem agrees_not_transitive : ¬ ∀ a b c : Attributes, a.Built → b.Built → c.Built →
    a.agrees b = true → b.agrees c = true → a.agrees c = true := by
  intro h
  have hac := h ((blank [⟨"x", none⟩, ⟨"y", none⟩]).extend [("x", "1"), ("y", "2")])
    (ofPairs [("x", "1"), ("y", "2")]) (ofPairs [("y", "2"), ("x", "1")])
    (.extend _ (.blank _)) (.extend _ .empty) (.extend _ .empty) (by decide) (by decide)
  exact absurd hac (by decide)

end CitationLocale.Attributes
