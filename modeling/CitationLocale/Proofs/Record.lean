import Mathlib.Data.List.Nodup
import CitationLocale.Markup.Fragment

/-!
# Records under setting and merging

What a record answers after an attribute was set, after many were set, and after its assignments
were laid over the defaults of a node type again (`get?_restore`). The operations keep the names in
a record distinct, or those of its schema in order (`IsSound`); two records that agree in schema,
distinct names and answers are the same.
-/

namespace CitationLocale

/-- The values found under a list of distinct keys determine the list. -/
theorem eq_of_lookup_eq {β : Type} {es fs : List (String × β)}
    (hkeys : es.map Prod.fst = fs.map Prod.fst) (hnodup : (es.map Prod.fst).Nodup)
    (hlookup : ∀ k ∈ es.map Prod.fst, es.lookup k = fs.lookup k) : es = fs := by
  induction es generalizing fs with
  | nil => simpa using hkeys.symm
  | cons e es ih =>
    obtain ⟨k, v⟩ := e
    obtain _ | ⟨⟨k', v'⟩, fs⟩ := fs
    · simp at hkeys
    simp only [List.map_cons, List.cons.injEq, List.nodup_cons] at hkeys hnodup
    obtain ⟨rfl, hkeys⟩ := hkeys
    have hv : v = v' := by simpa using hlookup k (by simp)
    have htail : es = fs := by
      apply ih hkeys hnodup.2
      intro j hj
      have hne : j ≠ k := fun h => hnodup.1 (h ▸ hj)
      have := hlookup j (by simp [hj])
      rwa [List.lookup_cons, List.lookup_cons, beq_false_of_ne hne] at this
    rw [hv, htail]

/-- Of distinct keys each entry is the one that is found. -/
theorem lookup_of_mem {β : Type} {es : List (String × β)} (hnodup : (es.map Prod.fst).Nodup)
    {k : String} {v : β} (h : (k, v) ∈ es) : es.lookup k = some v := by
  induction es with
  | nil => simp at h
  | cons e es ih =>
    simp only [List.map_cons, List.nodup_cons] at hnodup
    rcases List.mem_cons.1 h with rfl | h
    · simp
    · have hne : k ≠ e.1 := fun hk => hnodup.1 (hk ▸ List.mem_map_of_mem h)
      rw [List.lookup_cons, beq_false_of_ne hne]
      exact ih hnodup.2 h

theorem lookup_eq_none_of_notMem {β : Type} {es : List (String × β)} {k : String}
    (h : k ∉ es.map Prod.fst) : es.lookup k = none := by
  rw [List.lookup_eq_none_iff]
  intro e he
  simp only [bne_iff_ne, ne_eq]
  rintro rfl
  exact h (List.mem_map_of_mem he)

theorem mem_of_lookup {β : Type} {es : List (String × β)} {k : String} {v : β}
    (h : es.lookup k = some v) : (k, v) ∈ es := by
  obtain ⟨before, after, rfl, -⟩ := List.lookup_eq_some_iff.1 h
  exact List.mem_append_right before List.mem_cons_self

theorem isSome_lookup_iff {β : Type} {es : List (String × β)} {k : String} :
    (es.lookup k).isSome ↔ k ∈ es.map Prod.fst := by
  rw [List.lookup_isSome_iff, List.mem_map]
  exact exists_congr fun e => and_congr_right fun _ => by rw [beq_iff_eq, eq_comm]

namespace Attributes

/-! ## One attribute -/

/-- Whether the record has a place for a name. -/
def Admits (r : Attributes) (key : String) : Prop :=
  key ∈ r.keys ∨ r.schema? = none

instance (r : Attributes) (key : String) : Decidable (r.Admits key) :=
  inferInstanceAs (Decidable (_ ∨ _))

theorem contains_iff {r : Attributes} {key : String} : r.contains key = true ↔ key ∈ r.keys := by
  simp [contains, keys]

theorem get?_eq_none_of_notMem {r : Attributes} {key : String} (h : key ∉ r.keys) :
    r.get? key = none := by
  rw [get?, lookup_eq_none_of_notMem h]
  rfl

/-- Of distinct names each one answers with its entry. -/
theorem get?_of_mem {r : Attributes} (h : r.keys.Nodup) {key : String} {value? : Option String}
    (hmem : (key, value?) ∈ r.entries) : r.get? key = value? := by
  rw [get?, lookup_of_mem h hmem]
  rfl

theorem set_of_mem {r : Attributes} {key : String} (h : key ∈ r.keys) (value : String) :
    r.set key value = { r with entries := replaceFirst key (some value) r.entries } := by
  rw [set, set?, if_pos (contains_iff.2 h)]
  rfl

theorem set_of_open {r : Attributes} {key : String} (h : key ∉ r.keys) (hopen : r.schema? = none)
    (value : String) :
    r.set key value = { r with entries := r.entries ++ [(key, some value)] } := by
  rw [set, set?, if_neg (mt contains_iff.1 h), if_neg (by simp [isFixed, hopen])]
  rfl

theorem set_of_not_admits {r : Attributes} {key : String} (h : ¬ r.Admits key) (value : String) :
    r.set key value = r := by
  obtain ⟨hmem, hfixed⟩ := not_or.1 h
  rw [set, set?, if_neg (mt contains_iff.1 hmem),
    if_pos (by rwa [isFixed, Option.isSome_iff_ne_none])]
  rfl

@[simp] theorem schema?_set (r : Attributes) (key value : String) :
    (r.set key value).schema? = r.schema? := by
  unfold set set?
  split_ifs <;> rfl

theorem keys_set (r : Attributes) (key value : String) :
    (r.set key value).keys =
      if key ∉ r.keys ∧ r.schema? = none then r.keys ++ [key] else r.keys := by
  by_cases hmem : key ∈ r.keys
  · rw [set_of_mem hmem, if_neg fun h => h.1 hmem]
    exact keys_replaceFirst key (some value) r.entries
  · by_cases hopen : r.schema? = none
    · rw [set_of_open hmem hopen, if_pos ⟨hmem, hopen⟩]
      simp [keys]
    · rw [set_of_not_admits (not_or.2 ⟨hmem, hopen⟩), if_neg fun h => hopen h.2]

theorem mem_keys_set_iff {r : Attributes} {key value k : String} :
    k ∈ (r.set key value).keys ↔ k ∈ r.keys ∨ k = key ∧ r.schema? = none := by
  rw [keys_set]
  split_ifs with hnew
  · simp [hnew.2]
  · refine (or_iff_left_of_imp ?_).symm
    rintro ⟨rfl, hopen⟩
    by_contra hmem
    exact hnew ⟨hmem, hopen⟩

theorem admits_set {r : Attributes} {key value k : String} :
    (r.set key value).Admits k ↔ r.Admits k := by
  rw [Admits, schema?_set, mem_keys_set_iff, or_assoc, or_iff_right_of_imp And.right]
  rfl

/-- Setting an attribute changes its own value only, and nothing where there is no place. -/
theorem get?_set (r : Attributes) (key value k : String) :
    (r.set key value).get? k = if k = key ∧ r.Admits key then some value else r.get? k := by
  by_cases hmem : key ∈ r.keys
  · have hsome : (r.entries.lookup key).isSome := isSome_lookup_iff.2 hmem
    have hadmits : r.Admits key := Or.inl hmem
    simp only [set_of_mem hmem, get?, lookup_replaceFirst, hsome, hadmits, and_true]
    split_ifs <;> rfl
  · by_cases hopen : r.schema? = none
    · have hadmits : r.Admits key := Or.inr hopen
      simp only [set_of_open hmem hopen, get?, List.lookup_append, hadmits, and_true]
      by_cases hk : k = key
      · subst hk
        rw [lookup_eq_none_of_notMem hmem, if_pos rfl]
        simp
      · rw [if_neg hk, List.lookup_cons, beq_false_of_ne hk]
        simp
    · have hadmits : ¬ r.Admits key := not_or.2 ⟨hmem, hopen⟩
      rw [set_of_not_admits hadmits, if_neg fun h => hadmits h.2]

/-! ## Many attributes -/

theorem extend_cons (r : Attributes) (p : String × String) (pairs : List (String × String)) :
    r.extend (p :: pairs) = (r.set p.1 p.2).extend pairs := rfl

@[simp] theorem schema?_extend (r : Attributes) (pairs : List (String × String)) :
    (r.extend pairs).schema? = r.schema? := by
  induction pairs generalizing r with
  | nil => rfl
  | cons p pairs ih => exact (ih _).trans (schema?_set r p.1 p.2)

/-- After many assignments a name has the last value it was given. -/
theorem get?_extend (r : Attributes) (pairs : List (String × String)) {k : String}
    (hk : r.Admits k) : (r.extend pairs).get? k = (pairs.reverse.lookup k).or (r.get? k) := by
  induction pairs generalizing r with
  | nil => rfl
  | cons p pairs ih =>
    rw [extend_cons, ih _ (admits_set.2 hk), get?_set, List.reverse_cons, List.lookup_append,
      Option.or_assoc]
    congr 1
    obtain ⟨key, value⟩ := p
    by_cases h : k = key
    · subst h
      rw [if_pos ⟨rfl, hk⟩]
      simp
    · rw [if_neg fun h' => h h'.1]
      simp [h]

theorem mem_keys_extend_iff {r : Attributes} {pairs : List (String × String)} {k : String} :
    k ∈ (r.extend pairs).keys ↔ k ∈ r.keys ∨ k ∈ pairs.map Prod.fst ∧ r.schema? = none := by
  induction pairs generalizing r with
  | nil => simp [extend]
  | cons p pairs ih =>
    rw [extend_cons, ih, schema?_set, mem_keys_set_iff, List.map_cons, List.mem_cons, or_assoc,
      or_and_right]

theorem keys_extend_of_fixed {r : Attributes} (hfixed : r.schema? ≠ none)
    (pairs : List (String × String)) : (r.extend pairs).keys = r.keys := by
  induction pairs generalizing r with
  | nil => rfl
  | cons p pairs ih =>
    rw [extend_cons, ih (by simpa using hfixed), keys_set, if_neg fun h => hfixed h.2]

/-- New distinct names are put behind the entries of an open record. -/
theorem extend_of_open {r : Attributes} (hopen : r.schema? = none) (pairs : List (String × String))
    (hnodup : (r.keys ++ pairs.map Prod.fst).Nodup) :
    r.extend pairs = ⟨none, r.entries ++ pairs.map fun p => (p.1, some p.2)⟩ := by
  induction pairs generalizing r with
  | nil =>
    rw [List.map_nil, List.append_nil, ← hopen]
    rfl
  | cons p pairs ih =>
    have hnew : p.1 ∉ r.keys := by
      intro h
      exact (List.disjoint_of_nodup_append hnodup) h (by simp)
    have hkeys : (r.set p.1 p.2).keys ++ pairs.map Prod.fst =
        r.keys ++ (p :: pairs).map Prod.fst := by
      rw [keys_set, if_pos ⟨hnew, hopen⟩]
      simp
    rw [extend_cons, ih (by simpa using hopen) (hkeys ▸ hnodup), set_of_open hnew hopen]
    simp

/-- The open record of pairs with distinct names has these pairs as its entries. -/
theorem ofPairs_of_nodup {pairs : List (String × String)} (hnodup : (pairs.map Prod.fst).Nodup) :
    ofPairs pairs = ⟨none, pairs.map fun p => (p.1, some p.2)⟩ := by
  have := extend_of_open (r := empty) rfl pairs (by simpa [empty, keys] using hnodup)
  simpa [ofPairs, empty] using this

theorem assigned_ofPairs {pairs : List (String × String)} (hnodup : (pairs.map Prod.fst).Nodup) :
    (ofPairs pairs).assigned = pairs := by
  rw [ofPairs_of_nodup hnodup, assigned, List.filterMap_map]
  exact by simp

/-! ## The names in a record -/

/-- An open record holds every name once, and a fixed record holds the names of its schema in order.
All operations keep it so. -/
structure IsSound (r : Attributes) : Prop where
  nodup : r.schema? = none → r.keys.Nodup
  keys : ∀ schema, r.schema? = some schema → r.keys = schema.map AttributeSpec.name

theorem keys_clear (r : Attributes) (key : String) : (r.clear key).keys = r.keys :=
  keys_replaceFirst key none r.entries

theorem isSound_defaults (schema : Schema) : (defaults schema).IsSound := by
  refine ⟨fun h => by simp [defaults] at h, fun sc h => ?_⟩
  obtain rfl : schema = sc := Option.some.inj h
  simp [Attributes.keys, defaults]

theorem IsSound.set {r : Attributes} (h : r.IsSound) (key value : String) :
    (r.set key value).IsSound := by
  refine ⟨fun hopen => ?_, fun schema hfixed => ?_⟩
  · rw [schema?_set] at hopen
    rw [keys_set]
    split_ifs with hnew
    · exact List.nodup_append.2
        ⟨h.nodup hopen, List.nodup_singleton key, by rintro a ha _ hb rfl; simp_all⟩
    · exact h.nodup hopen
  · rw [schema?_set] at hfixed
    rw [keys_set, if_neg (by simp [hfixed]), h.keys schema hfixed]

theorem IsSound.clear {r : Attributes} (h : r.IsSound) (key : String) : (r.clear key).IsSound := by
  constructor
  · rw [keys_clear]
    exact h.nodup
  · rw [keys_clear]
    exact h.keys

theorem IsSound.extend {r : Attributes} (h : r.IsSound) (pairs : List (String × String)) :
    (r.extend pairs).IsSound := by
  induction pairs generalizing r with
  | nil => exact h
  | cons p pairs ih => exact ih (h.set p.1 p.2)

theorem IsSound.nodup_keys {r : Attributes} (h : r.IsSound)
    (hnames : ∀ schema, r.schema? = some schema → (schema.map AttributeSpec.name).Nodup) :
    r.keys.Nodup := by
  cases hschema : r.schema? with
  | none => exact h.nodup hschema
  | some schema => rw [h.keys schema hschema]; exact hnames schema hschema

/-- Records with the same schema, names and answers are the same. -/
theorem ext_get? {a b : Attributes} (hschema : a.schema? = b.schema?) (hkeys : a.keys = b.keys)
    (hnodup : a.keys.Nodup) (hget : ∀ k ∈ a.keys, a.get? k = b.get? k) : a = b := by
  obtain ⟨sa, ea⟩ := a
  obtain ⟨sb, eb⟩ := b
  obtain rfl : sa = sb := hschema
  have hfound {es : List (String × Option String)} {k : String} (hk : k ∈ es.map Prod.fst) :
      es.lookup k = some (es.lookup k).join := by
    obtain ⟨v, hv⟩ := Option.isSome_iff_exists.1 (isSome_lookup_iff.2 hk)
    rw [hv]
    rfl
  have : ea = eb := by
    have hmaps : ea.map Prod.fst = eb.map Prod.fst := hkeys
    apply eq_of_lookup_eq hmaps hnodup
    intro k hk
    calc ea.lookup k = some (ea.lookup k).join := hfound hk
      _ = some (eb.lookup k).join := congrArg some (hget k hk)
      _ = eb.lookup k := (hfound (hmaps ▸ hk)).symm
  rw [this]

/-! ## Writing a record and laying it over the defaults again -/

/-- The record that is made for a node type from what is written of a record. -/
def restore (r : Attributes) (type? : Option NodeType) : Attributes :=
  createAttributes type? (.ofPairs r.assignments)

theorem assigned_keys_sublist (r : Attributes) : (r.assigned.map Prod.fst).Sublist r.keys := by
  unfold assigned keys
  induction r.entries with
  | nil => exact List.Sublist.refl _
  | cons e es ih =>
    obtain ⟨k, _ | v⟩ := e
    · exact ih.cons k
    · exact ih.cons_cons k

theorem assignments_keys_sublist (r : Attributes) :
    (r.assignments.map Prod.fst).Sublist r.keys :=
  (List.filter_sublist.map Prod.fst).trans r.assigned_keys_sublist

/-- The record holds no value behind an earlier entry of the same name. Only a schema that repeats
a name makes records that do. -/
def HidesNothing (r : Attributes) : Prop :=
  r.entries.Pairwise fun e f => e.1 = f.1 → f.2 = none

theorem hidesNothing_of_nodup {r : Attributes} (h : r.keys.Nodup) : r.HidesNothing :=
  (List.pairwise_map.1 h).imp fun hne heq => absurd heq hne

/-- What a record assigns to a name is what it answers for it. -/
theorem lookup_assigned {r : Attributes} (h : r.HidesNothing) (k : String) :
    r.assigned.lookup k = r.get? k := by
  revert h
  unfold HidesNothing assigned get?
  induction r.entries with
  | nil => intro _; rfl
  | cons e es ih =>
    intro h
    rw [List.pairwise_cons] at h
    obtain ⟨k', _ | v⟩ := e
    · have hskip : ((k', (none : Option String)) :: es).filterMap
          (fun e => e.2.map fun v => (e.1, v)) =
            es.filterMap fun e => e.2.map fun v => (e.1, v) := rfl
      rw [hskip, ih h.2, List.lookup_cons]
      by_cases hk : k = k'
      · -- the later entries of this name have no value either
        subst hk
        rw [beq_self_eq_true]
        cases hlater : es.lookup k with
        | none => rfl
        | some v? => exact h.1 _ (mem_of_lookup hlater) rfl
      · rw [beq_false_of_ne hk]
    · by_cases hk : k = k'
      · subst hk
        simp
      · simp only [List.filterMap_cons, Option.map_some, List.lookup_cons, beq_false_of_ne hk]
        exact ih h.2

theorem lookup_filter_key {es : List (String × String)} (p : String → Bool) (k : String) :
    (es.filter fun e => p e.1).lookup k = if p k then es.lookup k else none := by
  induction es with
  | nil => simp
  | cons e es ih =>
    obtain ⟨k', v⟩ := e
    by_cases hp : p k' <;> by_cases hk : k = k' <;> grind

theorem lookup_assignments {r : Attributes} (hnodup : r.keys.Nodup) (k : String) :
    r.assignments.lookup k = if r.isDefault k then none else r.get? k := by
  rw [assignments, lookup_filter_key (fun k => !r.isDefault k),
    lookup_assigned (hidesNothing_of_nodup hnodup)]
  cases r.isDefault k <;> rfl

theorem lookup_reverse {es : List (String × String)} (hnodup : (es.map Prod.fst).Nodup)
    (k : String) : es.reverse.lookup k = es.lookup k := by
  induction es with
  | nil => rfl
  | cons e es ih =>
    rw [List.map_cons, List.nodup_cons] at hnodup
    rw [List.reverse_cons, List.lookup_append, ih hnodup.2]
    obtain ⟨k', v⟩ := e
    by_cases hk : k = k'
    · subst hk
      rw [lookup_eq_none_of_notMem hnodup.1]
      simp
    · rw [List.lookup_cons, List.lookup_cons, beq_false_of_ne hk]
      simp

theorem get?_defaults (schema : Schema) (k : String) :
    (defaults schema).get? k = (schema.find? fun spec => spec.name == k).bind (·.default?) := by
  unfold defaults get?
  induction schema with
  | nil => rfl
  | cons spec schema ih =>
    rw [List.map_cons, List.lookup_cons, List.find?_cons]
    by_cases hk : k = spec.name
    · subst hk
      simp
    · rw [beq_false_of_ne hk, beq_false_of_ne (Ne.symm hk)]
      exact ih

theorem default?_of_fixed {r : Attributes} {schema : Schema} (hfixed : r.schema? = some schema)
    (k : String) : r.default? k = (defaults schema).get? k := by
  rw [get?_defaults]
  simp [default?, hfixed]

section Restore

variable {r : Attributes} {t : NodeType}

theorem schema?_restore (hfixed : r.schema? = some t.schema) :
    (r.restore (some t)).schema? = r.schema? := by
  rw [hfixed]
  exact schema?_extend _ _

theorem keys_restore (h : r.IsSound) (hfixed : r.schema? = some t.schema) :
    (r.restore (some t)).keys = r.keys := by
  rw [h.keys _ hfixed]
  exact (keys_extend_of_fixed (Option.some_ne_none t.schema) _).trans
    ((isSound_defaults t.schema).keys _ rfl)

/-- A restored record answers like the written one; where nothing was set it has the default. -/
theorem get?_restore (h : r.IsSound) (hfixed : r.schema? = some t.schema)
    (hnames : (t.schema.map AttributeSpec.name).Nodup) (k : String) :
    (r.restore (some t)).get? k = (r.get? k).or (r.default? k) := by
  have hkeys : r.keys = t.schema.map AttributeSpec.name := h.keys _ hfixed
  have hnodup : r.keys.Nodup := hkeys ▸ hnames
  have hassigned : (r.assignments.map Prod.fst).Nodup := hnodup.sublist r.assignments_keys_sublist
  by_cases hk : k ∈ r.keys
  · have hadmits : (defaults t.schema).Admits k := by
      left
      rw [(isSound_defaults t.schema).keys _ rfl]
      exact hkeys ▸ hk
    have hmerge : (r.restore (some t)).get? k =
        (r.assignments.lookup k).or ((defaults t.schema).get? k) := by
      rw [← lookup_reverse hassigned, ← get?_extend _ _ hadmits, restore,
        CitationLocale.createAttributes, merge, assigned_ofPairs hassigned]
    rw [hmerge, lookup_assignments hnodup, ← default?_of_fixed hfixed]
    unfold isDefault
    cases hd : r.default? k <;> grind
  · have hk' : k ∉ (r.restore (some t)).keys := by rwa [keys_restore h hfixed]
    have hdefault : r.default? k = none := by
      rw [default?_of_fixed hfixed]
      apply get?_eq_none_of_notMem
      rwa [(isSound_defaults t.schema).keys _ rfl, ← hkeys]
    rw [get?_eq_none_of_notMem hk', get?_eq_none_of_notMem hk, hdefault]
    rfl

/-- A fixed record in which every attribute with a default has a value is restored. -/
theorem restore_of_fixed (h : r.IsSound) (hfixed : r.schema? = some t.schema)
    (hnames : (t.schema.map AttributeSpec.name).Nodup)
    (hset : ∀ k, (r.default? k).isSome → (r.get? k).isSome) : r.restore (some t) = r := by
  have hkeys := keys_restore h hfixed
  refine ext_get? (schema?_restore hfixed) hkeys ?_ fun k _ => ?_
  · rw [hkeys, h.keys _ hfixed]
    exact hnames
  · rw [get?_restore h hfixed hnames]
    have := hset k
    cases hg : r.get? k <;> cases hd : r.default? k <;> simp_all

/-- An open record in which every name has a value is restored. -/
theorem restore_of_open (h : r.IsSound) (hopen : r.schema? = none)
    (hset : ∀ e ∈ r.entries, e.2.isSome) : r.restore none = r := by
  have hnodup : r.keys.Nodup := h.nodup hopen
  have hassignments : r.assignments = r.assigned := by
    apply List.filter_eq_self.2
    intro e _
    simp [isDefault, default?, hopen]
  have hentries : (r.assigned.map fun p => (p.1, some p.2)) = r.entries := by
    revert hset
    unfold assigned
    induction r.entries with
    | nil => intro _; rfl
    | cons e es ih =>
      intro hset
      obtain ⟨k, _ | v⟩ := e
      · simpa using hset (k, none) (by simp)
      · simp only [List.filterMap_cons, Option.map_some, List.map_cons, List.cons.injEq, true_and]
        exact ih fun e he => hset e (List.mem_cons_of_mem _ he)
  rw [restore, CitationLocale.createAttributes, hassignments,
    ofPairs_of_nodup (hnodup.sublist r.assigned_keys_sublist), hentries, ← hopen]

end Restore

/-- A sound record equals itself. -/
theorem IsSound.agrees_self {r : Attributes} (h : r.IsSound) : r.agrees r = true := by
  unfold agrees
  cases hschema : r.schema? with
  | some schema => simp
  | none =>
    simp only [Option.isNone_none, Bool.and_self, if_true, beq_self_eq_true, Bool.true_and,
      List.all_eq_true, beq_iff_eq]
    exact fun e he => lookup_of_mem (h.nodup hschema) he

end Attributes

/-- All nodes of a type without attributes have the same record, whatever is supplied. -/
theorem createAttributes_of_nil {t : NodeType} (h : t.schema = []) (supplied : Attributes) :
    createAttributes (some t) supplied = .blank t.schema := by
  have hkeys : (createAttributes (some t) supplied).keys = [] := by
    rw [createAttributes, Attributes.merge,
      Attributes.keys_extend_of_fixed (r := .defaults t.schema) (Option.some_ne_none _), h]
    rfl
  refine Attributes.ext_get? (Attributes.schema?_extend _ _) ?_ ?_ fun k hk => ?_
  · rw [hkeys, h]
    rfl
  · rw [hkeys]
    exact List.nodup_nil
  · rw [hkeys] at hk
    exact absurd hk List.not_mem_nil

end CitationLocale
