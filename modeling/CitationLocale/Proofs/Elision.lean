import CitationLocale.Proofs.Agreement

/-!
# When leaving out defaults loses nothing

A record is written without the values that are equal to their default, and it is made again by
laying what was written over the defaults. A fixed record comes back just when every attribute with
a default has a value (`Attributes.restore_eq_iff`): what was taken away from such an attribute
cannot be told from what was left out. An open record has no defaults, but it holds the names whose
value was taken away, so it comes back just when every name in it has a value
(`Attributes.agrees_ofPairs_assignments_iff`).
-/

namespace CitationLocale

namespace Attributes

variable {r : Attributes}

/-! ## Fixed records -/

section Fixed

variable {t : NodeType} {spec : AttributeSpec}

/-- Of distinct names each one has the default of its own declaration. -/
theorem default?_of_mem (hfixed : r.schema? = some t.schema)
    (hnames : (t.schema.map AttributeSpec.name).Nodup) (hspec : spec ∈ t.schema) :
    r.default? spec.name = spec.default? := by
  have hnodup : (defaults t.schema).keys.Nodup := by
    simpa [keys, defaults, Function.comp_def] using hnames
  have hmem : (spec.name, spec.default?) ∈ (defaults t.schema).entries := List.mem_map_of_mem hspec
  rw [default?_of_fixed hfixed, get?_of_mem hnodup hmem]

theorem exists_of_default?_isSome (hfixed : r.schema? = some t.schema) {k : String}
    (h : (r.default? k).isSome) : ∃ spec ∈ t.schema, spec.name = k ∧ spec.default?.isSome := by
  rw [default?_of_fixed hfixed, get?_defaults] at h
  obtain ⟨d, hd⟩ := Option.isSome_iff_exists.1 h
  obtain ⟨spec, hspec, hdefault⟩ := Option.bind_eq_some_iff.1 hd
  exact ⟨spec, List.mem_of_find?_eq_some hspec, by simpa using List.find?_some hspec,
    Option.isSome_iff_exists.2 ⟨d, hdefault⟩⟩

/-- A fixed record comes back just when no attribute with a default was cleared. -/
theorem restore_eq_iff (h : r.IsSound) (hfixed : r.schema? = some t.schema)
    (hnames : (t.schema.map AttributeSpec.name).Nodup) : r.restore (some t) = r ↔
      ∀ spec ∈ t.schema, spec.default?.isSome → (r.get? spec.name).isSome := by
  constructor
  · intro hrestored spec hspec hdefault
    have hget := get?_restore h hfixed hnames spec.name
    rw [hrestored, default?_of_mem hfixed hnames hspec] at hget
    rw [hget, Option.isSome_or, hdefault, Bool.or_true]
  · intro hset
    refine restore_of_fixed h hfixed hnames fun k hk => ?_
    obtain ⟨spec, hspec, rfl, hdefault⟩ := exists_of_default?_isSome hfixed hk
    exact hset spec hspec hdefault

theorem agrees_restore_iff (hfixed : r.schema? = some t.schema) :
    (r.restore (some t)).agrees r = true ↔ r.restore (some t) = r := by
  have hschema : (r.restore (some t)).schema? = r.schema? := schema?_restore hfixed
  rw [agrees_iff_eq (by simp [hfixed]), Attributes.mk.injEq]
  exact (and_iff_right hschema).symm

end Fixed

/-! ## Open records -/

theorem isSome_get?_iff (h : r.keys.Nodup) :
    (∀ k ∈ r.keys, (r.get? k).isSome) ↔ ∀ e ∈ r.entries, e.2.isSome := by
  rw [keys, List.forall_mem_map]
  exact forall₂_congr fun e he => by rw [get?_of_mem h he]

/-- An open record comes back just when none of its names was cleared. -/
theorem agrees_ofPairs_assignments_iff (h : r.IsSound) (hopen : r.schema? = none) :
    (ofPairs r.assignments).agrees r = true ↔ ∀ k ∈ r.keys, (r.get? k).isSome := by
  rw [isSome_get?_iff (h.nodup hopen)]
  constructor
  · intro hagrees e he
    -- all that was made from pairs has a value, and agreeing records hold the same entries
    have hnodup : (r.assignments.map Prod.fst).Nodup :=
      (h.nodup hopen).sublist r.assignments_keys_sublist
    have hperm := (agrees_iff_perm (isSound_empty.extend _) h (schema?_extend _ _) hopen).1 hagrees
    have hmem : e ∈ (ofPairs r.assignments).entries := hperm.symm.subset he
    rw [ofPairs_of_nodup hnodup] at hmem
    obtain ⟨p, -, rfl⟩ := List.mem_map.1 hmem
    rfl
  · intro hset
    have hrestored : ofPairs r.assignments = r := restore_of_open h hopen hset
    rw [hrestored]
    exact h.agrees_self

end Attributes

namespace Node

/-- What is written of the attributes of a node is enough to make them again just when no attribute
with a default was cleared, if the record is fixed by a type with distinct names, and just when no
name was cleared, if the record is open. -/
theorem agrees_created_attributes_iff (n : Node) (hn : n.attributes.Built) :
    (∀ t : NodeType, (t.schema.map AttributeSpec.name).Nodup →
        n.attributes.schema? = some t.schema →
        ((createAttributes (some t) (.ofPairs n.attributes.assignments)).agrees n.attributes =
            true ↔
          ∀ spec ∈ t.schema, spec.default?.isSome → (n.attributes.get? spec.name).isSome) ∧
        (createAttributes (some t) (.ofPairs n.attributes.assignments) = n.attributes ↔
          ∀ spec ∈ t.schema, spec.default?.isSome → (n.attributes.get? spec.name).isSome)) ∧
      (n.attributes.schema? = none →
        ((Attributes.ofPairs n.attributes.assignments).agrees n.attributes = true ↔
          ∀ k ∈ n.attributes.keys, (n.attributes.get? k).isSome)) := by
  refine ⟨fun t hnames hfixed => ⟨?_, ?_⟩, fun hopen => ?_⟩
  · exact (Attributes.agrees_restore_iff hfixed).trans
      (Attributes.restore_eq_iff hn.isSound hfixed hnames)
  · exact Attributes.restore_eq_iff hn.isSound hfixed hnames
  · exact Attributes.agrees_ofPairs_assignments_iff hn.isSound hopen

/-- A term whose form was cleared is made again with the long form, a term with a name only is made
again as it is, and a generic element loses a cleared name. -/
theorem agrees_created_attributes_of_cleared :
    (createAttributes (some (.builtin .term)) (.ofPairs
        (Node.term ((Term.named "page").clear "form")).attributes.assignments)).agrees
          (Node.term ((Term.named "page").clear "form")).attributes = false ∧
      (createAttributes (some (.builtin .term)) (.ofPairs
        (Node.term (Term.named "page")).attributes.assignments)).agrees
          (Node.term (Term.named "page")).attributes = true ∧
      (Attributes.ofPairs (Node.generic "a" ((Attributes.ofPairs [("x", "1"), ("y", "2")]).clear
        "x")).attributes.assignments).agrees (Node.generic "a"
          ((Attributes.ofPairs [("x", "1"), ("y", "2")]).clear "x")).attributes = false := by
  have hterm : (Term.named "page").attributes.Built := .merge _ (.defaults _)
  have hnames : ((NodeType.builtin .term).schema.map AttributeSpec.name).Nodup := by decide
  refine ⟨?_, ?_, ?_⟩
  · rw [← Bool.not_eq_true, ((agrees_created_attributes_iff
      (.term ((Term.named "page").clear "form")) (.clear _ hterm)).1 _ hnames rfl).1]
    decide
  · rw [((agrees_created_attributes_iff (.term (Term.named "page")) hterm).1 _ hnames rfl).1]
    decide
  · rw [← Bool.not_eq_true, (agrees_created_attributes_iff
      (.generic "a" ((Attributes.ofPairs [("x", "1"), ("y", "2")]).clear "x"))
      (.clear _ (.extend _ .empty))).2 (by decide)]
    decide

end Node

end CitationLocale
