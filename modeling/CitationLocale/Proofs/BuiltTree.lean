import CitationLocale.Proofs.Agreement
import CitationLocale.Proofs.Position
import CitationLocale.Proofs.RestoredTree

/-!
# Trees that the operations build

A tree is built by reading a document or by creating a node, and then changed step by step
(`Node.Built`). Whatever the steps are, every record in the tree is one that the operations on
records make (`Node.Built.everywhere`).
-/

namespace CitationLocale

open Markup

theorem built_createAttributes {supplied : Attributes} (h : supplied.Built)
    (type? : Option NodeType) : (createAttributes type? supplied).Built := by
  cases type? with
  | none => exact h
  | some t => exact .merge supplied (.defaults t.schema)

namespace Node

/-- The trees that the operations on nodes make. The children of an element may be exchanged for
any others, an edit of attributes may be any one that makes records out of such records, and a term
may have any content in which the records of the forms are such records. -/
inductive Built : Node → Prop
  | parse {r : Registry} {s : String} {n : Node} : Node.parseWith r s = .ok n → Built n
  | create (r : Registry) (name : String) {supplied : Attributes} :
      supplied.Built → Built (r.create name supplied)
  | createIn (r : Registry) (c : Category) (name : String) {supplied : Attributes} :
      supplied.Built → Built (r.createIn c name supplied)
  | generic (name : String) {attributes : Attributes} :
      attributes.Built → Built (.generic name attributes)
  | raw (s : String) : Built (.text (.raw s))
  | term {t : Term} :
      t.attributes.Built → (∀ f ∈ t.formNodes, f.attributes.Built) → Built (.term t)
  | terms {table : TermTable} :
      table.attributes.Built → (∀ t ∈ table.terms, Built (.term t)) → Built (.terms table)
  | child {n c : Node} : Built n → c ∈ n.children → Built c
  | append {n c n' : Node} : Built n → Built c → n.append c = .ok n' → Built n'
  | pushText {n n' : Node} (s : String) : Built n → n.pushText s = .ok n' → Built n'
  | setText {n n' : Node} (s : String) : Built n → n.setText? s = some n' → Built n'
  | rename {n n' : Node} (name : String) : Built n → n.rename? name = some n' → Built n'
  | exchange {type? : Option NodeType} {name : String} {attributes : Attributes}
      {ns ns' : List Node} : Built (.element type? name attributes ns) → (∀ c ∈ ns', Built c) →
      Built (.element type? name attributes ns')
  | replaceAt {n m n' : Node} (path : List Nat) :
      Built n → Built m → n.replaceAt? path m = some n' → Built n'
  | mapAttributesAt {n n' : Node} {f : Attributes → Attributes} (path : List Nat) :
      (∀ a : Attributes, a.Built → (f a).Built) → Built n → n.mapAttributesAt? f path = some n' →
      Built n'

/-! ## Nodes without an operation -/

/-- The record of a node is one that the operations on records make. -/
def HasBuiltRecord (n : Node) : Prop :=
  n.attributes.Built

theorem everywhere_of_children_eq_nil {n : Node} (h : n.HasBuiltRecord) (hnil : n.children = []) :
    n.Everywhere HasBuiltRecord := by
  refine .intro h fun c hc => ?_
  rw [hnil] at hc
  exact absurd hc List.not_mem_nil

theorem everywhere_typed (type : NodeType) {supplied : Attributes} (h : supplied.Built)
    (s : String) : (Node.text (.typed type supplied s)).Everywhere HasBuiltRecord := by
  have hrecord : (Node.text (.typed type supplied s)).HasBuiltRecord :=
    built_createAttributes h (some type)
  exact everywhere_of_children_eq_nil hrecord rfl

theorem everywhere_term {t : Term} (h : t.attributes.Built)
    (hforms : ∀ f ∈ t.formNodes, f.attributes.Built) : (Node.term t).Everywhere HasBuiltRecord := by
  refine .intro h fun c hc => ?_
  obtain ⟨f, hf, rfl⟩ := List.mem_map.1 hc
  exact everywhere_of_children_eq_nil (n := .text f) (hforms f hf) rfl

theorem everywhere_terms {table : TermTable} (h : table.attributes.Built)
    (hterms : ∀ t ∈ table.terms, (Node.term t).Everywhere HasBuiltRecord) :
    (Node.terms table).Everywhere HasBuiltRecord := by
  refine .intro h fun c hc => ?_
  obtain ⟨t, ht, rfl⟩ := List.mem_map.1 hc
  exact hterms t ht

theorem everywhere_instantiate (type? : Option NodeType) (name : String) {supplied : Attributes}
    (h : supplied.Built) :
    (Registry.instantiate type? name supplied).Everywhere HasBuiltRecord := by
  unfold Registry.instantiate
  cases type? with
  | none => exact everywhere_of_children_eq_nil (n := .generic name supplied) h rfl
  | some t =>
    dsimp only
    cases t.variant with
    | branch =>
      have hrecord : (Node.element (some t) t.name (createAttributes (some t) supplied)
          []).HasBuiltRecord := built_createAttributes h (some t)
      exact everywhere_of_children_eq_nil hrecord rfl
    | leaf => exact everywhere_typed t h ""
    | term =>
      exact everywhere_term (built_createAttributes h (some (.builtin .term)))
        fun f hf => absurd hf List.not_mem_nil
    | termTable => exact everywhere_terms (.blank _) fun t ht => absurd ht List.not_mem_nil

/-! ## Operations -/

theorem everywhere_parseWith {r : Registry} {s : String} {n : Node}
    (h : Node.parseWith r s = .ok n) : n.Everywhere HasBuiltRecord := by
  obtain ⟨-, row, root, -, -, hbuild⟩ := parseWith_eq_ok.1 h
  refine Item.everywhere_build (fun i m hm => ?_) (fun s => Attributes.Built.empty) hbuild
  have hcreate : (r.create i.name (.ofPairs i.start.2)).HasBuiltRecord :=
    (everywhere_instantiate _ _ (.extend i.start.2 .empty)).root
  rwa [HasBuiltRecord, attributes_eq_of_head (Item.head_build r hm)]

variable {n c n' : Node}

/-- The forms of a term after an addition: those from before, and a new one with the record of what
was added. -/
theorem mem_formNodes_put {t : Term} {p : Term.Place} {r : Attributes} {s : String} {f : TextNode}
    (h : f ∈ (t.put p r s).formNodes) : f ∈ t.formNodes ∨ f.attributes = r := by
  cases p with
  | flat =>
    rw [Term.put] at h
    split_ifs at h
    · exact .inl h
    · exact absurd h List.not_mem_nil
  | single =>
    exact (Term.mem_formNodes_putSingle h).imp_right fun hf => congrArg TextNode.attributes hf
  | multiple =>
    exact (Term.mem_formNodes_putMultiple h).imp_right fun hf => congrArg TextNode.attributes hf

theorem Everywhere.add_term {t : Term} {a : Addition}
    (ht : (Node.term t).Everywhere HasBuiltRecord) (ha : a.record.Built)
    (h : (Node.term t).add a = .ok n') : n'.Everywhere HasBuiltRecord := by
  have hrecord : t.attributes.Built := ht.root
  obtain ⟨p, s, -, -, rfl⟩ := add_term_eq_ok.1 h
  refine everywhere_term (by rwa [Term.attributes_put]) fun f hf => ?_
  rcases mem_formNodes_put hf with hf | hf
  · exact (ht.of_mem _ (List.mem_map_of_mem hf)).root
  · rwa [hf]

theorem Everywhere.append (hn : n.Everywhere HasBuiltRecord) (hc : c.Everywhere HasBuiltRecord)
    (h : n.append c = .ok n') : n'.Everywhere HasBuiltRecord := by
  have hrecord : n'.HasBuiltRecord := by
    rw [HasBuiltRecord, attributes_eq_of_head (head_append h)]
    exact hn.root
  cases n with
  | element type? name attributes ns =>
    obtain rfl := Except.ok.inj h
    refine .intro hrecord fun d hd => ?_
    rcases List.mem_append.1 hd with hd | hd
    · exact hn.of_mem d hd
    · obtain rfl := List.mem_singleton.1 hd
      exact hc
  | text t => simp [Node.append] at h
  | term t => exact hn.add_term (a := .child c) hc.root h
  | terms table =>
    cases c with
    | term t =>
      obtain rfl := Except.ok.inj h
      refine everywhere_terms hrecord fun u hu => ?_
      rcases List.mem_append.1 hu with hu | hu
      · exact hn.of_mem (.term u) (List.mem_map_of_mem hu)
      · obtain rfl := List.mem_singleton.1 hu
        exact hc
    | element | text | terms => simp [Node.append] at h

/-- Text added at the end of some nodes is a new node or joins one of them. -/
theorem mem_pushRaw {s : String} {ns : List Node} {d : Node} (h : d ∈ pushRaw s ns) :
    d ∈ ns ∨ d = .text (.raw s) ∨ ∃ t : TextNode, .text t ∈ ns ∧ d = .text (t.push s) := by
  fun_induction pushRaw s ns with
  | case1 => exact .inr (.inl (List.mem_singleton.1 h))
  | case2 t hraw => exact .inr (.inr ⟨t, List.mem_cons_self, List.mem_singleton.1 h⟩)
  | case3 t hraw =>
    rcases List.mem_cons.1 h with rfl | h
    · exact .inl List.mem_cons_self
    · exact .inr (.inl (List.mem_singleton.1 h))
  | case4 m ns hlast ih =>
    rcases List.mem_cons.1 h with rfl | h
    · exact .inl List.mem_cons_self
    · rcases ih h with h | h | ⟨t, ht, rfl⟩
      · exact .inl (List.mem_cons_of_mem m h)
      · exact .inr (.inl h)
      · exact .inr (.inr ⟨t, List.mem_cons_of_mem m ht, rfl⟩)

theorem Everywhere.pushText {s : String} (hn : n.Everywhere HasBuiltRecord)
    (h : n.pushText s = .ok n') : n'.Everywhere HasBuiltRecord := by
  have hrecord : n'.HasBuiltRecord := by
    rw [HasBuiltRecord, attributes_eq_of_head (head_pushText h)]
    exact hn.root
  cases n with
  | element type? name attributes ns =>
    obtain rfl := Except.ok.inj h
    refine .intro hrecord fun d hd => ?_
    rcases mem_pushRaw hd with hd | rfl | ⟨t, ht, rfl⟩
    · exact hn.of_mem d hd
    · exact everywhere_of_children_eq_nil Attributes.Built.empty rfl
    · exact everywhere_of_children_eq_nil (hn.of_mem _ ht).root rfl
  | text t =>
    obtain rfl := Except.ok.inj h
    exact everywhere_of_children_eq_nil hrecord rfl
  | term t => exact hn.add_term (a := .text s) .empty h
  | terms table =>
    simp only [Node.pushText] at h
    split_ifs at h
    obtain rfl := Except.ok.inj h
    exact hn

theorem Everywhere.setText {s : String} (hn : n.Everywhere HasBuiltRecord)
    (h : n.setText? s = some n') : n'.Everywhere HasBuiltRecord := by
  cases n with
  | text t =>
    obtain rfl := Option.some.inj h
    exact everywhere_of_children_eq_nil hn.root rfl
  | term t =>
    obtain rfl := Option.some.inj h
    exact everywhere_term hn.root fun f hf => absurd hf List.not_mem_nil
  | element | terms => simp [setText?] at h

theorem Everywhere.rename {name : String} (hn : n.Everywhere HasBuiltRecord)
    (h : n.rename? name = some n') : n'.Everywhere HasBuiltRecord := by
  cases n with
  | element type? name attributes ns =>
    obtain rfl := Option.some.inj h
    exact .intro hn.root hn.of_mem
  | text | term | terms => simp [rename?] at h

/-- Every record in a tree that the operations build is one that the operations on records make. -/
theorem Built.everywhere (h : n.Built) : n.Everywhere HasBuiltRecord := by
  induction h with
  | parse h => exact everywhere_parseWith h
  | create r name h => exact everywhere_instantiate _ name h
  | createIn r c name h => exact everywhere_instantiate _ name h
  | generic name h => exact everywhere_of_children_eq_nil h rfl
  | raw s => exact everywhere_of_children_eq_nil Attributes.Built.empty rfl
  | term h hforms => exact everywhere_term h hforms
  | terms h _ ih => exact everywhere_terms h ih
  | child _ hc ih => exact ih.of_mem _ hc
  | append _ _ h ihn ihc => exact ihn.append ihc h
  | pushText s _ h ih => exact ih.pushText h
  | setText s _ h ih => exact ih.setText h
  | rename name _ h ih => exact ih.rename h
  | exchange _ _ ih ihs => exact .intro ih.root ihs
  | replaceAt path _ _ h ihn ihm => exact ihn.replaceAt? (fun _ _ _ _ _ hP => hP) ihm h
  | mapAttributesAt path hf _ h ih =>
    refine ih.mapAttributesAt? (fun m m' hm hP => ?_) h
    rcases hm.attributes with hsame | hedited
    · rwa [HasBuiltRecord, hsame]
    · rw [HasBuiltRecord, hedited]
      exact hf _ hP

end Node

end CitationLocale
