import Mathlib.Data.String.Basic
import CitationLocale.Proofs.Record

/-!
# Members in key order

The members of a JSON object are visited in ascending order of their keys, each key once and with
the last value that was given for it (`mem_inKeyOrder_iff`). So are the values that are set when an
object is merged into a record, where null sets nothing (`Attributes.mem_storedPairs_iff`).
-/

namespace CitationLocale

section

variable {α : Type}

theorem lookup_insertByKey (key k : String) (value : α) (members : List (String × α)) :
    (insertByKey key value members).lookup k =
      if k = key then some value else members.lookup k := by
  induction members with
  | nil => by_cases h : k = key <;> simp [insertByKey, h]
  | cons m members ih =>
    obtain ⟨k', v⟩ := m
    by_cases h : k = key <;> by_cases hk : k = k' <;> grind [insertByKey]

/-- Of several members with one key the last one counts. -/
theorem lookup_inKeyOrder (members : List (String × α)) (k : String) :
    (inKeyOrder members).lookup k = members.reverse.lookup k := by
  suffices hsorted : ∀ sorted : List (String × α),
      (members.foldl (fun sorted m => insertByKey m.1 m.2 sorted) sorted).lookup k =
        (members.reverse.lookup k).or (sorted.lookup k) by
    exact (hsorted []).trans (Option.or_none)
  induction members with
  | nil => exact fun sorted => rfl
  | cons m members ih =>
    intro sorted
    rw [List.foldl_cons, ih, lookup_insertByKey, List.reverse_cons, List.lookup_append,
      Option.or_assoc]
    congr 1
    obtain ⟨k', v⟩ := m
    by_cases h : k = k'
    · simp [h]
    · rw [if_neg h, List.lookup_cons, beq_false_of_ne h]
      rfl

theorem mem_insertByKey {key : String} {value : α} {members : List (String × α)}
    {m : String × α} (h : m ∈ insertByKey key value members) :
    m = (key, value) ∨ m ∈ members := by
  induction members with
  | nil => exact .inl (List.mem_singleton.1 h)
  | cons m' members ih =>
    rw [insertByKey] at h
    split_ifs at h
    · exact List.mem_cons.1 h
    · exact (List.mem_cons.1 h).imp_right (List.mem_cons_of_mem m')
    · rcases List.mem_cons.1 h with rfl | h
      · exact .inr List.mem_cons_self
      · exact (ih h).imp_right (List.mem_cons_of_mem m')

theorem pairwise_insertByKey {members : List (String × α)}
    (h : members.Pairwise fun m m' => m.1 < m'.1) (key : String) (value : α) :
    (insertByKey key value members).Pairwise fun m m' => m.1 < m'.1 := by
  induction members with
  | nil => exact List.pairwise_singleton _ _
  | cons m members ih =>
    rw [List.pairwise_cons] at h
    rw [insertByKey]
    split_ifs with hlt heq
    · refine List.pairwise_cons.2 ⟨?_, List.pairwise_cons.2 h⟩
      exact List.forall_mem_cons.2 ⟨hlt, fun m' hm' => hlt.trans (h.1 m' hm')⟩
    · exact List.pairwise_cons.2 ⟨heq ▸ h.1, h.2⟩
    · have hgt : m.1 < key := lt_of_le_of_ne (not_lt.1 hlt) (Ne.symm heq)
      refine List.pairwise_cons.2 ⟨fun m' hm' => ?_, ih h.2⟩
      rcases mem_insertByKey hm' with rfl | hm'
      · exact hgt
      · exact h.1 m' hm'

/-- Every key stands once among members in key order, and in ascending order. -/
theorem pairwise_inKeyOrder (members : List (String × α)) :
    (inKeyOrder members).Pairwise fun m m' => m.1 < m'.1 :=
  List.foldlRecOn members (fun sorted m => insertByKey m.1 m.2 sorted) List.Pairwise.nil
    fun _ hsorted m _ => pairwise_insertByKey hsorted m.1 m.2

theorem mem_inKeyOrder_iff {members : List (String × α)} {k : String} {value : α} :
    (k, value) ∈ inKeyOrder members ↔ members.reverse.lookup k = some value := by
  have hnodup : ((inKeyOrder members).map Prod.fst).Nodup :=
    List.pairwise_map.2 ((pairwise_inKeyOrder members).imp fun hlt => hlt.ne)
  rw [← lookup_inKeyOrder]
  exact ⟨lookup_of_mem hnodup, mem_of_lookup⟩

end

namespace Attributes

theorem pairwise_storedPairs (members : List (String × Json)) :
    (storedPairs members).Pairwise fun p q => p.1 < q.1 := by
  refine List.pairwise_filterMap.2 ((pairwise_inKeyOrder members).imp fun hlt p hp q hq => ?_)
  obtain ⟨s, -, rfl⟩ := Option.map_eq_some_iff.1 hp
  obtain ⟨t, -, rfl⟩ := Option.map_eq_some_iff.1 hq
  exact hlt

theorem mem_storedPairs_iff {members : List (String × Json)} {k s : String} :
    (k, s) ∈ storedPairs members ↔
      ∃ j, members.reverse.lookup k = some j ∧ storedText? j = some s := by
  rw [storedPairs, List.mem_filterMap]
  constructor
  · rintro ⟨⟨k', j⟩, hm, hstored⟩
    obtain ⟨text, htext, heq⟩ := Option.map_eq_some_iff.1 hstored
    obtain ⟨rfl, rfl⟩ := Prod.mk.inj heq
    exact ⟨j, mem_inKeyOrder_iff.1 hm, htext⟩
  · rintro ⟨j, hj, htext⟩
    exact ⟨(k, j), mem_inKeyOrder_iff.2 hj, by rw [htext]; rfl⟩

theorem mem_keys_storedPairs {members : List (String × Json)} {k : String}
    (h : k ∈ (storedPairs members).map Prod.fst) : k ∈ members.map Prod.fst := by
  obtain ⟨⟨k, s⟩, hmem, rfl⟩ := List.mem_map.1 h
  obtain ⟨j, hj, -⟩ := mem_storedPairs_iff.1 hmem
  exact List.mem_map_of_mem (List.mem_reverse.1 (mem_of_lookup hj))

end Attributes

end CitationLocale
