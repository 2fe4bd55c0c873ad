import CitationLocale.Proofs.Agreement

/-!
# Laws of setting attributes

Setting attributes obeys the laws of a map that remembers the order of its names: the second of two
settings of one name wins (`Attributes.set_set`), settings of two names change places unless they
would add both names in another order (`Attributes.set_comm`), and setting what is there already
changes nothing (`Attributes.set_of_get?`). All operations keep that no value stands behind an
earlier entry of its name (`Attributes.Built.hidesNothing`).
-/

namespace CitationLocale

/-! ## Putting values into entries -/

section ReplaceFirst

variable {es : List (String × Option String)} {j k : String} {v? w? : Option String}

theorem replaceFirst_append_of_notMem (h : k ∉ es.map Prod.fst)
    (fs : List (String × Option String)) :
    replaceFirst k v? (es ++ fs) = es ++ replaceFirst k v? fs := by
  induction es with
  | nil => rfl
  | cons e es ih =>
    simp only [List.map_cons, List.mem_cons, not_or] at h
    rw [List.cons_append, replaceFirst, if_neg (Ne.symm h.1), ih h.2, List.cons_append]

theorem replaceFirst_append_of_mem (h : k ∈ es.map Prod.fst)
    (fs : List (String × Option String)) :
    replaceFirst k v? (es ++ fs) = replaceFirst k v? es ++ fs := by
  induction es with
  | nil => simp at h
  | cons e es ih =>
    by_cases hk : e.1 = k
    · simp [replaceFirst, hk]
    · have htail : k ∈ es.map Prod.fst := (List.mem_cons.1 h).resolve_left (Ne.symm hk)
      rw [List.cons_append, replaceFirst, if_neg hk, ih htail, replaceFirst, if_neg hk,
        List.cons_append]

theorem replaceFirst_replaceFirst (k : String) (v? w? : Option String)
    (es : List (String × Option String)) :
    replaceFirst k w? (replaceFirst k v? es) = replaceFirst k w? es := by
  induction es with
  | nil => rfl
  | cons e es ih =>
    by_cases hk : e.1 = k
    · simp [replaceFirst, hk]
    · simp only [replaceFirst, if_neg hk, ih]

theorem replaceFirst_comm (hne : j ≠ k) (es : List (String × Option String)) :
    replaceFirst j w? (replaceFirst k v? es) = replaceFirst k v? (replaceFirst j w? es) := by
  induction es with
  | nil => rfl
  | cons e es ih =>
    obtain ⟨i, u⟩ := e
    by_cases hk : i = k
    · have hj : i ≠ j := fun h => hne (h ▸ hk)
      simp only [replaceFirst, if_pos hk, if_neg hj]
    · by_cases hj : i = j
      · simp only [replaceFirst, if_neg hk, if_pos hj]
      · simp only [replaceFirst, if_neg hk, if_neg hj, ih]

theorem replaceFirst_of_lookup (h : es.lookup k = some v?) : replaceFirst k v? es = es := by
  induction es with
  | nil => rfl
  | cons e es ih =>
    obtain ⟨i, u⟩ := e
    by_cases hk : i = k
    · subst hk
      obtain rfl : u = v? := by simpa using h
      rw [replaceFirst, if_pos rfl]
    · rw [List.lookup_cons, beq_false_of_ne (Ne.symm hk)] at h
      rw [replaceFirst, if_neg hk, ih h]

/-- The entries around the first one of a name. -/
theorem exists_entries_of_mem (h : k ∈ es.map Prod.fst) :
    ∃ before after, k ∉ before.map Prod.fst ∧ es = before ++ (k, (es.lookup k).join) :: after := by
  obtain ⟨v?, hv⟩ := Option.isSome_iff_exists.1 (isSome_lookup_iff.2 h)
  obtain ⟨before, after, hes, hbefore⟩ := List.lookup_eq_some_iff.1 hv
  refine ⟨before, after, ?_, by rw [hv]; exact hes⟩
  intro hmem
  obtain ⟨e, he, rfl⟩ := List.mem_map.1 hmem
  simpa using hbefore e he

end ReplaceFirst

namespace Attributes

variable {r o : Attributes} {j k v w : String}

/-! ## Laws of setting -/

/-- The second of two settings of one name wins. -/
theorem set_set (r : Attributes) (k v w : String) : (r.set k v).set k w = r.set k w := by
  by_cases hmem : k ∈ r.keys
  · have hmem' : k ∈ (r.set k v).keys := mem_keys_set_iff.2 (.inl hmem)
    rw [set_of_mem hmem', set_of_mem hmem, set_of_mem hmem]
    simp only [replaceFirst_replaceFirst]
  · by_cases hopen : r.schema? = none
    · have hmem' : k ∈ (r.set k v).keys := mem_keys_set_iff.2 (.inr ⟨rfl, hopen⟩)
      rw [set_of_mem hmem', set_of_open hmem hopen, set_of_open hmem hopen]
      simp only [replaceFirst_append_of_notMem hmem, replaceFirst, if_true]
    · rw [set_of_not_admits (not_or.2 ⟨hmem, hopen⟩) v]

/-- Whether setting a name leaves the names in the record as they are. -/
def IsSettled (r : Attributes) (k : String) : Prop :=
  k ∈ r.keys ∨ r.schema? ≠ none

theorem IsSettled.set (h : r.IsSettled k) (j w : String) : (r.set j w).IsSettled k := by
  rw [IsSettled, schema?_set, mem_keys_set_iff]
  exact h.imp_left .inl

theorem IsSettled.extend (h : r.IsSettled k) (pairs : List (String × String)) :
    (r.extend pairs).IsSettled k := by
  induction pairs generalizing r with
  | nil => exact h
  | cons p pairs ih => exact ih (h.set p.1 p.2)

theorem isSettled_set (r : Attributes) (k v : String) : (r.set k v).IsSettled k := by
  rw [IsSettled, schema?_set, mem_keys_set_iff]
  by_cases hopen : r.schema? = none
  · exact .inl (.inr ⟨rfl, hopen⟩)
  · exact .inr hopen

/-- Settings of two names can change places, if they do not add both names in another order. -/
theorem set_comm (hne : j ≠ k) (hk : r.IsSettled k) :
    (r.set k v).set j w = (r.set j w).set k v := by
  by_cases hk' : r.Admits k
  swap
  · rw [set_of_not_admits hk', set_of_not_admits (mt admits_set.1 hk')]
  by_cases hj' : r.Admits j
  swap
  · rw [set_of_not_admits hj', set_of_not_admits (mt admits_set.1 hj')]
  have hkmem : k ∈ r.keys := by
    rcases hk with hk | hk
    · exact hk
    · exact hk'.resolve_right hk
  have hkmem' : k ∈ (r.set j w).keys := mem_keys_set_iff.2 (.inl hkmem)
  by_cases hjmem : j ∈ r.keys
  · have hjmem' : j ∈ (r.set k v).keys := mem_keys_set_iff.2 (.inl hjmem)
    rw [set_of_mem hjmem', set_of_mem hkmem', set_of_mem hkmem, set_of_mem hjmem]
    simp only [replaceFirst_comm hne]
  · have hopen : r.schema? = none := hj'.resolve_left hjmem
    have hjmem' : j ∉ (r.set k v).keys := by rwa [keys_set, if_neg fun h => h.1 hkmem]
    rw [set_of_open hjmem' (by rwa [schema?_set]), set_of_mem hkmem', set_of_mem hkmem,
      set_of_open hjmem hopen]
    simp only [replaceFirst_append_of_mem hkmem]

/-- Setting what is there already changes nothing. -/
theorem set_of_get? (h : r.get? k = some v) : r.set k v = r := by
  have hlookup : r.entries.lookup k = some (some v) := Option.join_eq_some_iff.1 h
  have hmem : k ∈ r.keys := List.mem_map_of_mem (mem_of_lookup hlookup)
  rw [set_of_mem hmem, replaceFirst_of_lookup hlookup]

/-! ## Laws of many settings -/

theorem extend_append (r : Attributes) (ps qs : List (String × String)) :
    r.extend (ps ++ qs) = (r.extend ps).extend qs :=
  List.foldl_append

theorem admits_extend {ps : List (String × String)} : (r.extend ps).Admits k ↔ r.Admits k := by
  induction ps generalizing r with
  | nil => rfl
  | cons p ps ih => rw [extend_cons, ih, admits_set]

/-- A setting can be moved behind settings of other names. -/
theorem extend_set_comm {ps : List (String × String)} (hps : k ∉ ps.map Prod.fst)
    (hk : r.IsSettled k) : (r.set k v).extend ps = (r.extend ps).set k v := by
  induction ps generalizing r with
  | nil => rfl
  | cons p ps ih =>
    simp only [List.map_cons, List.mem_cons, not_or] at hps
    rw [extend_cons, set_comm (Ne.symm hps.1) hk, ih hps.2 (hk.set p.1 p.2), extend_cons]

/-- Settings that change nothing one by one change nothing together. -/
theorem extend_of_set {ps : List (String × String)} (h : ∀ p ∈ ps, r.set p.1 p.2 = r) :
    r.extend ps = r := by
  induction ps with
  | nil => rfl
  | cons p ps ih =>
    rw [List.forall_mem_cons] at h
    rw [extend_cons, h.1, ih h.2]

/-- Making the same settings again changes nothing, if no two of them are of one name. -/
theorem extend_extend_of_nodup {ps : List (String × String)} (h : (ps.map Prod.fst).Nodup)
    (r : Attributes) : (r.extend ps).extend ps = r.extend ps := by
  apply extend_of_set
  intro p hp
  by_cases hadmits : r.Admits p.1
  · apply set_of_get?
    rw [get?_extend r ps hadmits, lookup_reverse h, lookup_of_mem h hp]
    rfl
  · apply set_of_not_admits
    exact mt admits_extend.1 hadmits

/-! ## Records that hide nothing -/

theorem mem_replaceFirst {es : List (String × Option String)} {v? : Option String}
    {e : String × Option String} (h : e ∈ replaceFirst k v? es) : e = (k, v?) ∨ e ∈ es := by
  induction es with
  | nil => exact absurd h List.not_mem_nil
  | cons e' es ih =>
    rw [replaceFirst] at h
    split_ifs at h with hk
    · rcases List.mem_cons.1 h with rfl | h
      · exact .inl (by rw [hk])
      · exact .inr (List.mem_cons_of_mem e' h)
    · rcases List.mem_cons.1 h with rfl | h
      · exact .inr List.mem_cons_self
      · exact (ih h).imp_right (List.mem_cons_of_mem e')

theorem hidesNothing_replaceFirst (h : r.HidesNothing) (k : String) (v? : Option String) :
    HidesNothing { r with entries := replaceFirst k v? r.entries } := by
  revert h
  unfold HidesNothing
  dsimp only
  induction r.entries with
  | nil => exact id
  | cons e es ih =>
    intro h
    rw [List.pairwise_cons] at h
    rw [replaceFirst]
    split_ifs with hk
    · exact List.pairwise_cons.2 h
    · refine List.pairwise_cons.2 ⟨fun f hf hef => ?_, ih h.2⟩
      rcases mem_replaceFirst hf with rfl | hf
      · exact absurd hef hk
      · exact h.1 f hf hef

theorem HidesNothing.clear (h : r.HidesNothing) (k : String) : (r.clear k).HidesNothing :=
  hidesNothing_replaceFirst h k none

theorem HidesNothing.set (h : r.HidesNothing) (k v : String) : (r.set k v).HidesNothing := by
  by_cases hmem : k ∈ r.keys
  · rw [set_of_mem hmem]
    exact hidesNothing_replaceFirst h k (some v)
  · by_cases hopen : r.schema? = none
    · rw [set_of_open hmem hopen]
      refine List.pairwise_append.2 ⟨h, List.pairwise_singleton _ _, fun e he f hf hef => ?_⟩
      obtain rfl := List.mem_singleton.1 hf
      have hk : e.1 = k := hef
      exact absurd (List.mem_map_of_mem he) (hk ▸ hmem)
    · rwa [set_of_not_admits (not_or.2 ⟨hmem, hopen⟩)]

theorem HidesNothing.extend (h : r.HidesNothing) (pairs : List (String × String)) :
    (r.extend pairs).HidesNothing := by
  induction pairs generalizing r with
  | nil => exact h
  | cons p pairs ih => exact ih (h.set p.1 p.2)

/-- Only a default that a schema declares at a second place of a name can be hidden. -/
theorem Built.hidesNothing (h : r.Built) (hdefaults : ∀ schema, r.schema? = some schema →
    schema.Pairwise fun s t => s.name = t.name → t.default? = none) : r.HidesNothing := by
  induction h with
  | empty => exact List.Pairwise.nil
  | blank schema =>
    exact List.pairwise_map.2 (List.pairwise_of_forall fun _ _ _ => rfl)
  | defaults schema => exact List.pairwise_map.2 (hdefaults schema rfl)
  | set key value _ ih => exact (ih (by simpa using hdefaults)).set key value
  | clear key _ ih => exact (ih hdefaults).clear key
  | extend pairs _ ih => exact (ih (by simpa using hdefaults)).extend pairs
  | merge other _ ih =>
    exact (ih fun schema h => hdefaults schema ((schema?_extend _ _).trans h)).extend other.assigned
  | mergeJson value _ hmerge ih =>
    cases value with
    | object members =>
      obtain rfl := Except.ok.inj hmerge
      exact (ih (by simpa using hdefaults)).extend _
    | null | bool | number | string | array => simp [Attributes.mergeJson] at hmerge

/-- Each name is assigned once in a record that hides nothing. -/
theorem HidesNothing.nodup_assigned (h : r.HidesNothing) : (r.assigned.map Prod.fst).Nodup := by
  revert h
  unfold HidesNothing assigned
  induction r.entries with
  | nil => exact fun _ => List.nodup_nil
  | cons e es ih =>
    intro h
    rw [List.pairwise_cons] at h
    obtain ⟨k, _ | v⟩ := e
    · exact ih h.2
    · refine List.nodup_cons.2 ⟨fun hmem => ?_, ih h.2⟩
      obtain ⟨p, hp, hpk⟩ := List.mem_map.1 hmem
      obtain ⟨f, hf, hfp⟩ := List.mem_filterMap.1 hp
      obtain ⟨u, hu, rfl⟩ := Option.map_eq_some_iff.1 hfp
      exact absurd (h.1 f hf hpk.symm) (by simp [hu])

theorem mem_keys_assigned_iff (h : r.HidesNothing) :
    k ∈ r.assigned.map Prod.fst ↔ (r.get? k).isSome := by
  rw [← isSome_lookup_iff, lookup_assigned h]

end Attributes

end CitationLocale
