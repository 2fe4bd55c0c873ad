import CitationLocale.Proofs.KeyOrder
import CitationLocale.Proofs.Settings

/-!
# Laying one record over another

Many assignments are the same as merging the open record of the pairs, where each name stands once
with its last value (`Attributes.extend_eq_merge_ofPairs`), because a setting can be moved out of
the record that is merged (`Attributes.merge_set`). So merging is an overlay that is idempotent and
associative (`Attributes.merge_overlays`), except that a value which a record holds behind an
earlier entry of the same name is copied although the record does not answer with it
(`Attributes.merge_copies_hidden_values`).
-/

namespace CitationLocale

namespace Attributes

variable {r o : Attributes} {k v : String}

/-! ## Laws of merging -/

/-- What a record that is merged answers comes before what was there. -/
theorem get?_merge (h : o.HidesNothing) (hk : r.Admits k) :
    (r.merge o).get? k = (o.get? k).or (r.get? k) := by
  rw [merge, get?_extend r o.assigned hk, lookup_reverse h.nodup_assigned, lookup_assigned h]

/-- What a record assigns around one of its names. -/
theorem exists_assigned_of_mem (h : o.HidesNothing) (hk : k ∈ o.keys) :
    ∃ xs ys : List (String × String), k ∉ ys.map Prod.fst ∧
      o.assigned = xs ++ ((o.get? k).map fun w => (k, w)).toList ++ ys ∧
      ∀ v, (o.set k v).assigned = xs ++ (k, v) :: ys := by
  obtain ⟨before, after, hbefore, hentries⟩ := exists_entries_of_mem hk
  have hafter : ∀ f ∈ after, k = f.1 → f.2 = none := by
    rw [HidesNothing, hentries, List.pairwise_append] at h
    exact (List.pairwise_cons.1 h.2.1).1
  have hset (v : String) : (o.set k v).entries = before ++ (k, some v) :: after := by
    rw [set_of_mem hk, hentries]
    dsimp only
    rw [replaceFirst_append_of_notMem hbefore, replaceFirst, if_pos rfl]
  refine ⟨before.filterMap fun e => e.2.map fun v => (e.1, v),
    after.filterMap fun e => e.2.map fun v => (e.1, v), fun hmem => ?_, ?_, fun v => ?_⟩
  · obtain ⟨p, hp, hpk⟩ := List.mem_map.1 hmem
    obtain ⟨f, hf, hfp⟩ := List.mem_filterMap.1 hp
    obtain ⟨u, hu, rfl⟩ := Option.map_eq_some_iff.1 hfp
    exact absurd (hafter f hf hpk.symm) (by simp [hu])
  · rw [assigned, hentries, List.filterMap_append, List.filterMap_cons, ← get?]
    cases o.get? k <;> simp
  · rw [assigned, hset, List.filterMap_append, List.filterMap_cons]
    rfl

/-- Merging a record in which a name is set is setting the name after merging. -/
theorem merge_set (h : o.HidesNothing) (hk : k ∈ o.keys)
    (hr : (o.get? k).isSome ∨ r.IsSettled k) : r.merge (o.set k v) = (r.merge o).set k v := by
  obtain ⟨xs, ys, hys, hassigned, hset⟩ := exists_assigned_of_mem h hk
  rw [merge, merge, hset, hassigned, extend_append, extend_append, extend_append, extend_cons]
  cases hget : o.get? k with
  | some w =>
    calc ((r.extend xs).set k v).extend ys = (((r.extend xs).set k w).set k v).extend ys := by
          rw [set_set]
      _ = (((r.extend xs).set k w).extend ys).set k v :=
          extend_set_comm hys (isSettled_set _ k w)
  | none =>
    have hsettled : r.IsSettled k := hr.resolve_left (by simp [hget])
    exact extend_set_comm hys (hsettled.extend xs)

theorem merge_set_of_new (hk : k ∉ o.keys) (hopen : o.schema? = none) :
    r.merge (o.set k v) = (r.merge o).set k v := by
  have hassigned : (o.set k v).assigned = o.assigned ++ [(k, v)] := by
    rw [set_of_open hk hopen, assigned, List.filterMap_append]
    rfl
  rw [merge, merge, hassigned, extend_append]
  rfl

/-- Settings can be moved out of an open record without cleared names that is merged. -/
theorem merge_extend_of_open (hopen : o.schema? = none) (h : o.HidesNothing)
    (hvalues : ∀ k ∈ o.keys, (o.get? k).isSome) (pairs : List (String × String)) :
    r.merge (o.extend pairs) = (r.merge o).extend pairs := by
  induction pairs generalizing o with
  | nil => rfl
  | cons p pairs ih =>
    obtain ⟨k, v⟩ := p
    have hstep : r.merge (o.set k v) = (r.merge o).set k v := by
      by_cases hk : k ∈ o.keys
      · exact merge_set h hk (.inl (hvalues k hk))
      · exact merge_set_of_new hk hopen
    rw [extend_cons, ih (by rwa [schema?_set]) (h.set k v), hstep, extend_cons]
    intro j hj
    rw [get?_set]
    split_ifs with hjk
    · rfl
    · have hne : j ≠ k := fun heq => hjk ⟨heq, .inr hopen⟩
      rw [keys_set] at hj
      split_ifs at hj
      · exact hvalues j (by simpa [hne] using hj)
      · exact hvalues j hj

/-- Settings can be moved out of a record that is merged into a fixed record of its schema. -/
theorem merge_extend_of_fixed (hfixed : r.schema? ≠ none) (hschema : o.schema? = r.schema?)
    (hkeys : o.keys = r.keys) (h : o.HidesNothing) (pairs : List (String × String)) :
    r.merge (o.extend pairs) = (r.merge o).extend pairs := by
  induction pairs generalizing o with
  | nil => rfl
  | cons p pairs ih =>
    obtain ⟨k, v⟩ := p
    have hkeys' : (o.set k v).keys = r.keys := by
      rw [keys_set, if_neg fun h => hfixed (hschema ▸ h.2), hkeys]
    rw [extend_cons, ih ((schema?_set o k v).trans hschema) hkeys' (h.set k v), extend_cons]
    congr 1
    by_cases hk : k ∈ o.keys
    · exact merge_set h hk (.inr (.inr hfixed))
    · have ho : ¬ o.Admits k := not_or.2 ⟨hk, hschema ▸ hfixed⟩
      have hr : ¬ r.Admits k := not_or.2 ⟨hkeys ▸ hk, hfixed⟩
      have hr' : ¬ (r.merge o).Admits k := mt admits_extend.1 hr
      rw [set_of_not_admits ho, set_of_not_admits hr']

/-- Setting pairs is merging the open record of the pairs. -/
theorem extend_eq_merge_ofPairs (r : Attributes) (pairs : List (String × String)) :
    r.extend pairs = r.merge (ofPairs pairs) :=
  (merge_extend_of_open (o := empty) rfl List.Pairwise.nil (by simp [empty, keys]) pairs).symm

theorem hidesNothing_ofPairs (pairs : List (String × String)) : (ofPairs pairs).HidesNothing :=
  HidesNothing.extend (r := empty) List.Pairwise.nil pairs

/-- Merging a record again changes nothing. -/
theorem merge_merge (r o : Attributes) : (r.merge o).merge o = r.merge o := by
  rw [merge, merge, extend_eq_merge_ofPairs r, extend_eq_merge_ofPairs _ o.assigned]
  exact extend_extend_of_nodup (hidesNothing_ofPairs o.assigned).nodup_assigned r

/-! ## Merging a JSON object -/

/-- Sets one member of a JSON object: a string as it is, null not at all, and any other value in its
compact spelling. -/
def setMember (r : Attributes) (m : String × Json) : Attributes :=
  match m.2 with
  | .null => r
  | .string s => r.set m.1 s
  | other => r.set m.1 other.compact

theorem extend_storedPairs (r : Attributes) (members : List (String × Json)) :
    r.extend (storedPairs members) = (inKeyOrder members).foldl setMember r := by
  rw [extend, storedPairs, List.foldl_filterMap]
  congr 1
  funext r m
  obtain ⟨k, j⟩ := m
  cases j <;> rfl

/-! ## Merging one after the other -/

theorem mem_keys_merge_iff (hopen : r.schema? = none) (h : o.HidesNothing) :
    k ∈ (r.merge o).keys ↔ k ∈ r.keys ∨ (o.get? k).isSome := by
  rw [merge, mem_keys_extend_iff, mem_keys_assigned_iff h, and_iff_left hopen]

theorem mem_entries_iff (h : r.keys.Nodup) {v? : Option String} :
    (k, v?) ∈ r.entries ↔ k ∈ r.keys ∧ r.get? k = v? := by
  constructor
  · intro hmem
    exact ⟨List.mem_map_of_mem hmem, get?_of_mem h hmem⟩
  · rintro ⟨hk, rfl⟩
    obtain ⟨before, after, -, hentries⟩ := exists_entries_of_mem hk
    rw [hentries]
    exact List.mem_append_right before List.mem_cons_self

/-- Open records with the same names that answer alike agree. -/
theorem agrees_of_get? {a b : Attributes} (ha : a.IsSound) (hb : b.IsSound)
    (haopen : a.schema? = none) (hbopen : b.schema? = none)
    (hkeys : ∀ k, k ∈ a.keys ↔ k ∈ b.keys) (hget : ∀ k, a.get? k = b.get? k) :
    a.agrees b = true := by
  have hanodup := ha.nodup haopen
  have hbnodup := hb.nodup hbopen
  rw [agrees_iff_perm ha hb haopen hbopen, List.perm_ext_iff_of_nodup hanodup.of_map hbnodup.of_map]
  rintro ⟨k, v?⟩
  rw [mem_entries_iff hanodup, mem_entries_iff hbnodup, hkeys, hget]

variable {a b c : Attributes}

theorem merge_assoc_of_fixed (hfixed : a.schema? ≠ none) (ha : a.IsSound) (hb : b.IsSound)
    (hab : a.schema? = b.schema?) (hhides : b.HidesNothing) :
    (a.merge b).merge c = a.merge (b.merge c) := by
  obtain ⟨schema, hschema⟩ := Option.ne_none_iff_exists'.1 hfixed
  have hkeys : b.keys = a.keys :=
    (hb.keys schema (hab ▸ hschema)).trans (ha.keys schema hschema).symm
  exact (merge_extend_of_fixed hfixed hab.symm hkeys hhides c.assigned).symm

/-- Between open records the two orders of merging can leave the names in different orders. -/
theorem merge_assoc_of_open (ha : a.IsSound) (haopen : a.schema? = none) (hb : b.IsSound)
    (hbopen : b.schema? = none) (hhides : c.HidesNothing) :
    ((a.merge b).merge c).agrees (a.merge (b.merge c)) = true := by
  have hbhides : b.HidesNothing := hidesNothing_of_nodup (hb.nodup hbopen)
  have hbchides : (b.merge c).HidesNothing := hbhides.extend c.assigned
  have habopen : (a.merge b).schema? = none := (schema?_extend _ _).trans haopen
  have hget (k : String) : (b.merge c).get? k = (c.get? k).or (b.get? k) :=
    get?_merge hhides (.inr hbopen)
  refine agrees_of_get? ((ha.extend _).extend _) (ha.extend _)
    ((schema?_extend _ _).trans habopen) ((schema?_extend _ _).trans haopen) (fun k => ?_) fun k => ?_
  · rw [mem_keys_merge_iff habopen hhides, mem_keys_merge_iff haopen hbhides,
      mem_keys_merge_iff haopen hbchides, hget, Option.isSome_or, Bool.or_eq_true, or_assoc,
      or_comm (a := (b.get? k).isSome = true)]
  · rw [get?_merge hhides (.inr habopen), get?_merge hbhides (.inr haopen),
      get?_merge hbchides (.inr haopen), hget, Option.or_assoc]

/-- The three ways of assigning many values agree, and merging is an overlay. Setting pairs is
merging the open record of the pairs. Merging a JSON object is setting the members that are not
null in key order, where the last one of several members with one key counts. Merging a record
again changes nothing. The merged record answers before the other one, and it makes no difference
whether three records of one kind are merged from the left or from the right, unless the record
that is merged hides a value. Such records come only from schemas that declare a default at a
second place of a name. -/
theorem merge_overlays :
    (∀ (r : Attributes) (pairs : List (String × String)),
        r.extend pairs = r.merge (ofPairs pairs)) ∧
      (∀ (r : Attributes) (members : List (String × Json)),
        r.mergeJson (.object members) = .ok (r.extend (storedPairs members)) ∧
        r.mergeJson (.object members) = .ok ((inKeyOrder members).foldl setMember r) ∧
        ((storedPairs members).Pairwise fun p q => p.1 < q.1) ∧
        ∀ k s, (k, s) ∈ storedPairs members ↔
          ∃ j, members.reverse.lookup k = some j ∧ storedText? j = some s) ∧
      (∀ r o : Attributes, (r.merge o).merge o = r.merge o) ∧
      (∀ (r o : Attributes) (k : String), o.HidesNothing → r.Admits k →
        (r.merge o).get? k = (o.get? k).or (r.get? k)) ∧
      (∀ a b c : Attributes, a.Built → b.Built → c.Built → a.schema? = b.schema? →
        b.schema? = c.schema? → b.HidesNothing →
        ((a.merge b).merge c).agrees (a.merge (b.merge c)) = true) ∧
      ∀ o : Attributes, o.Built → (∀ schema, o.schema? = some schema →
        schema.Pairwise fun s t => s.name = t.name → t.default? = none) → o.HidesNothing := by
  refine ⟨extend_eq_merge_ofPairs, fun r members => ⟨rfl, ?_, pairwise_storedPairs members,
    fun k s => mem_storedPairs_iff⟩, merge_merge, fun r o k => get?_merge,
    fun a b c ha hb hc hab hbc hhides => ?_, fun o ho => ho.hidesNothing⟩
  · rw [mergeJson, extend_storedPairs]
  · by_cases hfixed : a.schema? = none
    · have hcopen : c.schema? = none := (hab.trans hbc) ▸ hfixed
      exact merge_assoc_of_open ha.isSound hfixed hb.isSound (hab ▸ hfixed)
        (hidesNothing_of_nodup (hc.isSound.nodup hcopen))
    · rw [merge_assoc_of_fixed hfixed ha.isSound hb.isSound hab hhides]
      exact IsSound.agrees_self (ha.isSound.extend _)

/-- A term takes the form of an open record with a cleared name, and open records are merged from
the left and from the right with their names in different orders. -/
theorem merge_overlays_cleared_names :
    ((defaults termSchema).merge ((ofPairs [("form", "short"), ("lang", "de")]).clear "lang")).get?
        "form" = some "short" ∧
      ((empty.merge ((ofPairs [("x", "1"), ("y", "2")]).clear "x")).merge
        (ofPairs [("x", "3")])).agrees
          (empty.merge (((ofPairs [("x", "1"), ("y", "2")]).clear "x").merge
            (ofPairs [("x", "3")]))) = true ∧
      ((empty.merge ((ofPairs [("x", "1"), ("y", "2")]).clear "x")).merge
        (ofPairs [("x", "3")])).keys = ["y", "x"] ∧
      (empty.merge (((ofPairs [("x", "1"), ("y", "2")]).clear "x").merge
        (ofPairs [("x", "3")]))).keys = ["x", "y"] := by
  obtain ⟨-, -, -, hget, hassoc, hhides⟩ := merge_overlays
  have hbuilt (pairs : List (String × String)) : (ofPairs pairs).Built := .extend pairs .empty
  have hopen (r : Attributes) (hr : r.Built) (h : r.schema? = none) : r.HidesNothing :=
    hhides r hr fun schema hschema => absurd (h.symm.trans hschema) (by simp)
  refine ⟨?_, ?_, by decide, by decide⟩
  · rw [hget _ _ "form" (hopen _ (.clear _ (hbuilt _)) rfl) (by decide)]
    decide
  · exact hassoc _ _ _ .empty (.clear _ (hbuilt _)) (hbuilt _) rfl rfl
      (hopen _ (.clear _ (hbuilt _)) rfl)

/-- A schema that repeats a name with a default makes a record whose second value is not what the
record answers, but what is left of it after merging; merged from the left, this value comes before
a later setting, and merged from the right it comes behind it. -/
theorem merge_copies_hidden_values :
    (¬ ∀ (r o : Attributes) (k : String), r.Built → o.Built → r.Admits k →
        (r.merge o).get? k = (o.get? k).or (r.get? k)) ∧
      ¬ ∀ a b c : Attributes, a.Built → b.Built → c.Built → a.schema? = b.schema? →
        b.schema? = c.schema? → ((a.merge b).merge c).agrees (a.merge (b.merge c)) = true := by
  constructor
  · intro h
    have hget := h empty (defaults [⟨"k", some "1"⟩, ⟨"k", some "2"⟩]) "k" .empty (.defaults _)
      (by decide)
    exact absurd hget (by decide)
  · intro h
    have hassoc := h (blank [⟨"k", some "1"⟩, ⟨"k", some "2"⟩])
      (defaults [⟨"k", some "1"⟩, ⟨"k", some "2"⟩])
      ((blank [⟨"k", some "1"⟩, ⟨"k", some "2"⟩]).set "k" "5")
      (.blank _) (.defaults _) (.set _ _ (.blank _)) rfl rfl
    exact absurd hassoc (by decide)

end Attributes

end CitationLocale
