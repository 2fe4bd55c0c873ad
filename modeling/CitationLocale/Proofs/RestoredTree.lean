import CitationLocale.Proofs.NormalForm
import CitationLocale.Proofs.WrittenTree

/-!
# Trees that are read again

What is read of a written tree is the tree with every record laid over the defaults of its type and
without the attributes of raw text (`Node.restored`, `build_restored`). Every tree that was read
can be written and read again (`Node.everywhere_isRead`, `Node.parseWith_toXml_of_isRead`), and it
is read as it is if markup spells all that it holds (`Node.IsRead.isComplete`, `Node.restored_eq`).
-/

namespace CitationLocale

open Markup Text

variable {r : Registry}

/-! ## Content that was written -/

/-- The items of written nodes stand for what is built from the nodes, if raw text among them is
neither blank nor next to other raw text. -/
theorem childrenOf_childItems {ns : List Node} {f : Node → Node} {run : String}
    (hbuild : ∀ n ∈ ns, n.isRaw = false → n.outline.item.build r = .ok (f n))
    (hraw : ∀ t : TextNode, .text t ∈ ns → t.isRaw = true →
      isBlank t.text = false ∧ f (.text t) = .text (.raw t.text))
    (hapart : ns.IsChain fun a b => ¬ (a.isRaw = true ∧ b.isRaw = true))
    (hrun : run = "" ∨ ∀ n ∈ ns.head?, n.isRaw = false) :
    Item.ChildrenOf r run (Outline.childItems (ns.map Node.outline))
      (Item.runNodes run ++ ns.map f) := by
  induction ns generalizing run with
  | nil => rw [List.map_nil, List.map_nil, List.append_nil]; exact .nil run
  | cons n ns ih =>
    rw [List.forall_mem_cons] at hbuild
    have hih (run : String) := @ih run hbuild.2
      (fun t ht => hraw t (List.mem_cons_of_mem n ht)) hapart.of_cons
    rw [List.map_cons, List.map_cons, Outline.childItems, Node.label_outline]
    by_cases hn : n.isRaw = true
    · cases n with
      | element | term | terms => simp [Node.isRaw] at hn
      | text t =>
        obtain ⟨hblank, hf⟩ := hraw t List.mem_cons_self hn
        obtain rfl : run = "" := by
          rcases hrun with hrun | hrun
          · exact hrun
          · have := hrun _ rfl
            simp [hn] at this
        have hhead : ∀ m ∈ ns.head?, m.isRaw = false := by
          intro m hm
          have hnot := (List.isChain_cons.1 hapart).1 m hm
          simpa [hn] using hnot
        have hns := hih t.text (.inr hhead)
        rw [Item.runNodes, hblank] at hns
        rw [hf, if_pos (show (Node.text t).label.raw = true from hn)]
        exact .text (by simpa [Item.runNodes, Node.label, Node.text?, isBlank] using hns)
    · have hn' : n.isRaw = false := by simpa using hn
      rw [if_neg (show ¬ n.label.raw = true from hn)]
      exact .element (Outline.isElement_item _) (hbuild.1 hn') (hih "" (.inl rfl))

/-- Where no node is raw text, only the items of the nodes are written. -/
theorem childItems_of_not_raw {ns : List Node} (h : ∀ n ∈ ns, n.isRaw = false) :
    Item.elements (Outline.childItems (ns.map Node.outline)) = ns.map (·.outline.item) ∧
      Item.characterData (Outline.childItems (ns.map Node.outline)) = "" := by
  induction ns with
  | nil => exact ⟨rfl, rfl⟩
  | cons n ns ih =>
    rw [List.forall_mem_cons] at h
    obtain ⟨helements, hdata⟩ := ih h.2
    have hn : ¬ n.label.raw = true := by
      rw [show n.label.raw = n.isRaw from rfl, h.1]
      decide
    have helement : n.outline.item.isElement = true := Outline.isElement_item _
    rw [List.map_cons, Outline.childItems, Node.label_outline, if_neg hn,
      Item.elements_cons_of_isElement helement, Item.characterData_cons_of_isElement helement,
      helements, hdata]
    exact ⟨rfl, rfl⟩

/-! ## Nodes that were written -/

/-- The form that is read again: its record is laid over the defaults. -/
def FormNode.restored (f : FormNode) (type : Builtin) : FormNode :=
  ⟨f.attributes.restore (some (.builtin type)), f.text⟩

/-- The content that is read again. -/
def TermContent.restored : TermContent → TermContent
  | .flat s => .flat s
  | .forms s? m? => .forms (s?.map (·.restored .single)) (m?.map (·.restored .multiple))

/-- The term that is read again. -/
def Term.restored (t : Term) : Term :=
  ⟨t.attributes.restore (some (.builtin .term)), t.content.restored⟩

/-- The table that is read again. -/
def TermTable.restored (table : TermTable) : TermTable :=
  ⟨table.attributes.restore (some (.builtin .terms)), table.terms.map Term.restored⟩

/-- The text node that is read again: raw text has no attributes. -/
def TextNode.restored (t : TextNode) : TextNode :=
  if t.isRaw then .raw t.text else ⟨t.type?, t.attributes.restore t.type?, t.text⟩

theorem build_text {t : TextNode} (h : r.Makes (.text t)) : (Node.text t).outline.item.build r =
    .ok (.text ⟨t.type?, t.attributes.restore t.type?, t.text⟩) := by
  have hcreate : r.create t.name (.ofPairs t.attributes.assignments) =
      .text ⟨t.type?, t.attributes.restore t.type?, ""⟩ := h.create_eq _
  rw [Node.outline_eq, Outline.item_of_text (s := t.text) rfl, Item.build_element_eq_ok]
  simp only [Node.label, Node.name, Node.attributes, hcreate]
  rw [Item.fill_of_holdsText rfl rfl]
  refine ⟨rfl, ?_⟩
  simp [Node.pushText, TextNode.push, Item.characterData]

/-- A node without text of its own is written with its children between its tags. -/
theorem item_outline {n : Node} (h : n.text? = none) (hchildren : n.children ≠ []) :
    n.outline.item = .element n.name n.attributes.assignments
      (Outline.childItems (n.children.map Node.outline)) := by
  have hne : n.children.map Node.outline ≠ [] := by simpa using hchildren
  rw [Node.outline_eq, Outline.item_of_ne_nil h hne]
  rfl

theorem item_outline_of_nil {n : Node} (h : n.text? = none) (hchildren : n.children = []) :
    n.outline.item = .empty n.name n.attributes.assignments := by
  rw [Node.outline_eq, hchildren, List.map_nil, Outline.item_of_nil h]
  rfl

theorem build_element {type? : Option NodeType} {name : String} {attributes : Attributes}
    {ns ms : List Node} (h : r.Makes (.element type? name attributes ns))
    (hchildren : Item.ChildrenOf r "" (Outline.childItems (ns.map Node.outline)) ms) :
    (Node.element type? name attributes ns).outline.item.build r =
      .ok (.element type? name (attributes.restore type?) ms) := by
  have hcreate : r.create name (.ofPairs attributes.assignments) =
      .element type? name (attributes.restore type?) [] := h.create_eq _
  by_cases hns : ns = []
  · subst hns
    obtain rfl : ms = [] := by cases hchildren; rfl
    rw [item_outline_of_nil rfl rfl]
    exact congrArg Except.ok hcreate
  · rw [item_outline (n := .element type? name attributes ns) rfl hns, Item.build_element_eq_ok]
    simp only [Node.name, Node.attributes, hcreate]
    exact ⟨trivial, Item.fill_element hchildren (by simp)⟩

theorem Term.isForm_of_mem_formNodes {t : Term} {f : TextNode} (hf : f ∈ t.formNodes) :
    f.IsForm := by
  obtain ⟨form, rfl | rfl⟩ := mem_formNodes hf
  · exact .inl rfl
  · exact .inr rfl

theorem TextNode.IsForm.restored {t : TextNode} (h : t.IsForm) : t.restored.IsForm := by
  rw [TextNode.restored, h.isRaw_eq_false]
  exact h

theorem build_of_mem_formNodes {t : Term} {f : TextNode} (hf : f ∈ t.formNodes)
    (h : r.Makes (.text f)) : (Node.text f).outline.item.build r = .ok (.text f.restored) := by
  obtain ⟨form, rfl | rfl⟩ := Term.mem_formNodes hf <;> exact build_text h

/-- Putting the forms of a term, as they are read again, to a term without content. -/
theorem Term.foldl_formNodes {t : Term} {s? m? : Option FormNode} (ht : t.content = .forms s? m?)
    (attributes : Attributes) :
    (t.formNodes.map TextNode.restored).foldl Term.withForm ⟨attributes, .forms none none⟩ =
      ⟨attributes, t.content.restored⟩ := by
  rw [formNodes, singleForm?, multipleForm?, ht]
  cases s? <;> cases m? <;> rfl

theorem build_term {t : Term} (h : r.Makes (.term t))
    (hforms : ∀ f ∈ t.formNodes, r.Makes (.text f)) :
    (Node.term t).outline.item.build r = .ok (.term t.restored) := by
  have hcreate : r.create "term" (.ofPairs t.attributes.assignments) =
      .term ⟨t.attributes.restore (some (.builtin .term)), .forms none none⟩ := h.create_eq _
  cases hcontent : t.content with
  | flat s =>
    have htext : t.text? = some s := by simp [Term.text?, hcontent]
    rw [Node.outline_eq, Outline.item_of_text htext, Item.build_element_eq_ok]
    simp only [Node.label, Node.name, Node.attributes, hcreate]
    rw [Item.fill_of_holdsText rfl rfl]
    refine ⟨trivial, ?_⟩
    simp [Node.pushText, Term.pushText, Item.characterData, Term.restored, TermContent.restored,
      hcontent]
  | forms s? m? =>
    have htext : (Node.term t).text? = none := by simp [Node.text?, Term.text?, hcontent]
    by_cases hnil : (Node.term t).children = []
    · obtain ⟨rfl, rfl⟩ : s? = none ∧ m? = none := by
        simpa [Node.children, Term.formNodes, Term.singleForm?, Term.multipleForm?, hcontent]
          using hnil
      rw [item_outline_of_nil htext hnil, Term.restored, hcontent]
      exact congrArg Except.ok hcreate
    · have hisForm : ∀ f ∈ t.formNodes.map TextNode.restored, f.IsForm := by
        intro f hf
        obtain ⟨g, hg, rfl⟩ := List.mem_map.1 hf
        exact (Term.isForm_of_mem_formNodes hg).restored
      have hraw : ∀ n ∈ (Node.term t).children, n.isRaw = false := by
        intro n hn
        obtain ⟨f, hf, rfl⟩ := List.mem_map.1 hn
        exact (Term.isForm_of_mem_formNodes hf).isRaw_eq_false
      obtain ⟨helements, hdata⟩ := childItems_of_not_raw hraw
      rw [item_outline htext hnil, Item.build_element_eq_ok]
      simp only [Node.name, Node.attributes, hcreate]
      refine ⟨trivial, (fill_term_eq_ok rfl (.inl ?_)).2
        ⟨?_, t.formNodes.map TextNode.restored, ?_, hisForm, ?_⟩⟩
      · rw [helements]
        exact fun h => hnil (List.map_eq_nil_iff.1 h)
      · rw [hdata]
        rfl
      · rw [helements, Node.children, List.map_map, List.map_map, List.map_map]
        exact List.map_congr_left fun f hf => build_of_mem_formNodes hf (hforms f hf)
      · rw [Term.foldl_formNodes hcontent, Term.restored]

/-- Nothing that is written makes a table have attributes. -/
theorem TermTable.restored_eq (table : TermTable) :
    table.restored = .ofTerms (table.terms.map Term.restored) := by
  rw [restored, Attributes.restore, createAttributes_of_nil rfl, ofTerms]

theorem build_terms {table : TermTable} (h : r.Makes (.terms table))
    (hterms : ∀ t ∈ table.terms, (Node.term t).outline.item.build r = .ok (.term t.restored)) :
    (Node.terms table).outline.item.build r = .ok (.terms table.restored) := by
  have hcreate (supplied : Attributes) : r.create "terms" supplied = .terms .empty :=
    h.create_eq supplied
  rw [table.restored_eq]
  by_cases hnil : (Node.terms table).children = []
  · have hterms : table.terms = [] := by simpa [Node.children] using hnil
    rw [item_outline_of_nil rfl hnil, hterms]
    exact congrArg Except.ok (hcreate _)
  · have hraw : ∀ n ∈ (Node.terms table).children, n.isRaw = false := by
      intro n hn
      obtain ⟨t, -, rfl⟩ := List.mem_map.1 hn
      rfl
    obtain ⟨helements, hdata⟩ := childItems_of_not_raw hraw
    rw [item_outline (n := .terms table) rfl hnil, Item.build_element_eq_ok]
    simp only [Node.name, Node.attributes, hcreate]
    refine ⟨trivial, fill_terms_eq_ok.2 ⟨by rw [hdata]; rfl, table.terms.map .restored, ?_, rfl⟩⟩
    rw [helements, Node.children, List.map_map, List.map_map, List.map_map]
    exact List.map_congr_left hterms

/-! ## Trees that were written -/

/-- What the shape of a single node has to be for its tree to be read again: the registry makes the
node, and raw text below it is neither blank nor next to other raw text. -/
structure Node.IsShaped (r : Registry) (n : Node) : Prop where
  made : n.isRaw = false → r.Makes n
  text : ∀ t : TextNode, .text t ∈ n.children → t.isRaw = true → isBlank t.text = false
  apart : n.children.IsChain fun a b => ¬ (a.isRaw = true ∧ b.isRaw = true)

mutual

/-- The tree that is read again: every record is laid over the defaults. -/
def Node.restored : Node → Node
  | .element type? name attributes ns =>
    .element type? name (attributes.restore type?) (restoredAll ns)
  | .text t => .text t.restored
  | .term t => .term t.restored
  | .terms table => .terms table.restored

def Node.restoredAll : List Node → List Node
  | [] => []
  | n :: ns => n.restored :: restoredAll ns

end

theorem Node.restoredAll_eq (ns : List Node) : restoredAll ns = ns.map restored := by
  induction ns with
  | nil => rfl
  | cons n ns ih => rw [restoredAll, ih, List.map_cons]

/-- What is written of a tree is built into the restored tree. -/
theorem build_restored {n : Node} (h : n.Everywhere (Node.IsShaped r)) (hraw : n.isRaw = false) :
    n.outline.item.build r = .ok n.restored := by
  induction h with
  | @intro n hn hbelow ih =>
    have hmakes : r.Makes n := hn.made hraw
    cases n with
    | element type? name attributes ns =>
      have htext : ∀ t : TextNode, .text t ∈ ns → t.isRaw = true →
          isBlank t.text = false ∧ (Node.text t).restored = .text (.raw t.text) :=
        fun t ht hraw => ⟨hn.text t ht hraw, by rw [Node.restored, TextNode.restored, if_pos hraw]⟩
      have hchildren : Item.ChildrenOf r "" (Outline.childItems (ns.map Node.outline))
          (Item.runNodes "" ++ ns.map Node.restored) :=
        childrenOf_childItems (fun c hc => ih c hc) htext hn.apart (.inl rfl)
      rw [build_element hmakes hchildren, Node.restored, Node.restoredAll_eq]
      rfl
    | text t =>
      have hraw : t.isRaw = false := hraw
      rw [build_text hmakes, Node.restored, TextNode.restored, hraw]
      rfl
    | term t =>
      have hforms : ∀ f ∈ t.formNodes, r.Makes (.text f) := by
        intro f hf
        exact (hbelow _ (List.mem_map_of_mem hf)).root.made
          (Term.isForm_of_mem_formNodes hf).isRaw_eq_false
      exact build_term hmakes hforms
    | terms table => exact build_terms hmakes fun t ht => ih _ (List.mem_map_of_mem ht) rfl

/-- A node is written completely: its record is restored, and raw text has none. -/
structure Node.IsComplete (n : Node) : Prop where
  raw : n.isRaw = true → n.attributes = .empty
  record : n.isRaw = false → n.attributes.restore n.type? = n.attributes

theorem FormNode.restored_eq {f : FormNode} {type : Builtin}
    (h : (f.node type).restored = f.node type) : f.restored type = f :=
  congrArg ofNode h

/-- A term whose forms are read as they are has the content that is read. -/
theorem Term.restored_content {t : Term} (h : ∀ f ∈ t.formNodes, f.restored = f) :
    t.content.restored = t.content := by
  obtain ⟨attributes, s | ⟨s?, m?⟩⟩ := t
  · rfl
  · have hsingle : ∀ f ∈ s?, f.restored .single = f := fun f hf =>
      FormNode.restored_eq (h _ (List.mem_append_left _ (Option.mem_toList.2
        (Option.mem_map_of_mem _ hf))))
    have hmultiple : ∀ f ∈ m?, f.restored .multiple = f := fun f hf =>
      FormNode.restored_eq (h _ (List.mem_append_right _ (Option.mem_toList.2
        (Option.mem_map_of_mem _ hf))))
    rw [TermContent.restored, Option.map_congr hsingle, Option.map_congr hmultiple, Option.map_id',
      Option.map_id']

theorem Node.restored_eq {n : Node} (h : n.Everywhere IsComplete) : n.restored = n := by
  induction h with
  | @intro n hn hbelow ih =>
    cases n with
    | element type? name attributes ns =>
      have hrecord : attributes.restore type? = attributes := hn.record rfl
      have hns : ns.map restored = ns := (List.map_congr_left ih).trans (List.map_id' ns)
      rw [restored, restoredAll_eq, hrecord, hns]
    | text t =>
      rw [restored, TextNode.restored]
      split_ifs with hraw
      · obtain ⟨type?, attributes, s⟩ := t
        obtain rfl : attributes = .empty := hn.raw hraw
        obtain rfl : type? = none := Option.isNone_iff_eq_none.1 hraw
        rfl
      · have hrecord : t.attributes.restore t.type? = t.attributes :=
          hn.record (Bool.not_eq_true _ ▸ hraw)
        rw [hrecord]
    | term t =>
      have hrecord : t.attributes.restore (some (.builtin .term)) = t.attributes := hn.record rfl
      have hcontent : t.content.restored = t.content := Term.restored_content fun f hf =>
        Node.text.inj (ih (.text f) (List.mem_map_of_mem hf))
      rw [restored, Term.restored, hrecord, hcontent]
    | terms table =>
      have hrestored : ∀ t ∈ table.terms, t.restored = t := by
        intro t ht
        have hterm := ih (.term t) (List.mem_map_of_mem ht)
        rw [restored] at hterm
        exact Node.term.inj hterm
      have hrecord : table.attributes.restore (some (.builtin .terms)) = table.attributes :=
        hn.record rfl
      rw [restored, TermTable.restored, hrecord, List.map_congr_left hrestored, List.map_id']

/-! ## Registries with distinct names -/

/-- All schemas of a registry have distinct attribute names. -/
def Registry.HasDistinctNames (r : Registry) : Prop :=
  ∀ t ∈ r.types, (t.schema.map AttributeSpec.name).Nodup

/-- What holds of all types of a registry, and of the types of terms and term tables, holds of the
type of a node that the registry makes. -/
theorem Registry.Makes.of_type {P : NodeType → Prop} {n : Node} (h : r.Makes n)
    (hr : ∀ t ∈ r.types, P t) (hterm : P (.builtin .term)) (hterms : P (.builtin .terms))
    {t : NodeType} (ht : n.type? = some t) : P t := by
  obtain ⟨hkind, htype⟩ := h .empty
  rw [ht, Registry.create_eq] at htype
  cases hlookup : r.lookup? n.name with
  | none => simp [hlookup, Node.generic, Node.type?] at htype
  | some u =>
    have hu : P u := hr u (List.mem_of_find?_eq_some hlookup)
    simp only [hlookup] at htype
    cases hvariant : u.variant with
    | branch | leaf =>
      rw [hvariant] at htype
      obtain rfl : u = t := Option.some.inj htype
      exact hu
    | term =>
      rw [hvariant] at htype
      obtain rfl : NodeType.builtin .term = t := Option.some.inj htype
      exact hterm
    | termTable =>
      rw [hvariant] at htype
      obtain rfl : NodeType.builtin .terms = t := Option.some.inj htype
      exact hterms

/-- A node with a type is made for the name of a type. -/
theorem Registry.Makes.exists_type {n : Node} (h : r.Makes n) {t : NodeType}
    (ht : n.type? = some t) : ∃ u ∈ r.types, u.name = n.name := by
  have htype := (h .empty).2
  rw [ht, Registry.create_eq] at htype
  cases hlookup : r.lookup? n.name with
  | none => simp [hlookup, Node.generic, Node.type?] at htype
  | some u => exact ⟨u, List.mem_of_find?_eq_some hlookup, name_of_lookup? hlookup⟩

theorem Registry.Makes.distinct_names {n : Node} (h : r.Makes n) (hr : r.HasDistinctNames)
    {t : NodeType} (ht : n.type? = some t) : (t.schema.map AttributeSpec.name).Nodup :=
  h.of_type (P := fun t => (t.schema.map AttributeSpec.name).Nodup) hr (by decide) (by decide) ht

theorem Registry.hasDistinctNames_builtins : builtins.HasDistinctNames := by
  unfold HasDistinctNames
  decide

/-- No attribute is written twice if the schema of the record names none twice. -/
theorem Attributes.IsSound.nodup_assignments {attributes : Attributes} (h : attributes.IsSound)
    (hschema : ∀ schema, attributes.schema? = some schema →
      (schema.map AttributeSpec.name).Nodup) : (attributes.assignments.map Prod.fst).Nodup :=
  (h.nodup_keys hschema).sublist attributes.assignments_keys_sublist

/-! ## Trees that were read -/

/-- A built tree is in normal form, and a registry with the usual names makes its nodes again. -/
theorem Markup.Item.everywhere_isNormal_build {i : Item} {n : Node} (h : i.build r = .ok n) :
    n.Everywhere fun m => m.IsNormal ∧ (r.HasUsualNames → m.isRaw = false → r.Makes m) := by
  have hempty : Attributes.empty.IsNormal := Attributes.isNormal_ofPairs []
  refine everywhere_build (fun i m hm => ⟨isNormal_build hm, fun hr _ => makes_build hr hm⟩)
    (fun s => ⟨Node.isNormal_text hempty rfl, fun _ hraw => ?_⟩) h
  simp [Node.isRaw, TextNode.raw, TextNode.isRaw] at hraw

namespace Node

/-- What holds of a single node in a tree that was read and still holds after its attributes were
edited. -/
structure IsRead (r : Registry) (n : Node) : Prop extends n.IsShaped r where
  record : n.attributes.IsSound
  schema : n.attributes.schema? = n.type?.map NodeType.schema

theorem IsNormal.isRead {n : Node} (h : n.IsNormal) (hmade : n.isRaw = false → r.Makes n) :
    n.IsRead r :=
  { made := hmade
    text := fun t ht hraw => (h.text t ht hraw).2
    apart := h.apart
    record := h.record.isSound
    schema := h.schema }

theorem everywhere_isRead (hr : r.HasUsualNames) {s : String} {t : Node}
    (h : Node.parseWith r s = .ok t) : t.isRaw = false ∧ t.Everywhere (IsRead r) := by
  obtain ⟨-, row, root, -, -, hbuild⟩ := parseWith_eq_ok.1 h
  refine ⟨Item.isRaw_build r hbuild, (Item.everywhere_isNormal_build hbuild).mono ?_⟩
  rintro m ⟨hnormal, hmade⟩
  exact hnormal.isRead (hmade hr)

/-- Raw text that carries no attributes: there is no tag in which they could be written. -/
def IsBare (n : Node) : Prop :=
  n.isRaw = true → n.attributes.entries = []

/-- Markup spells everything that a node holds: raw text carries no attributes, an open record has a
value for each of its names, and no attribute with a default is without value. -/
structure IsSpelledOut (n : Node) : Prop where
  bare : n.IsBare
  valued : n.attributes.schema? = none → ∀ e ∈ n.attributes.entries, e.2.isSome = true
  defaults : ∀ k, (n.attributes.default? k).isSome = true → (n.attributes.get? k).isSome = true

namespace IsRead

variable {n : Node} (hr : r.HasDistinctNames) (h : n.IsRead r)
include hr h

theorem distinct_names {t : NodeType} (ht : n.type? = some t) :
    (t.schema.map AttributeSpec.name).Nodup := by
  cases hraw : n.isRaw with
  | true => simp [(isRaw_iff.1 hraw).2] at ht
  | false => exact (h.made hraw).distinct_names hr ht

theorem nodup_assignments : (n.attributes.assignments.map Prod.fst).Nodup := by
  refine h.record.nodup_assignments fun schema hschema => ?_
  rw [h.schema] at hschema
  obtain ⟨t, ht, rfl⟩ := Option.map_eq_some_iff.1 hschema
  exact h.distinct_names hr ht

theorem isWritable (hname : IsXmlName n.name) (hkeys : ∀ a ∈ n.attributes.assigned, IsXmlName a.1) :
    n.IsWritable :=
  ⟨hname, fun a ha => hkeys a (List.mem_filter.1 ha).1, h.nodup_assignments hr⟩

theorem isComplete (hspelled : n.IsSpelledOut) : n.IsComplete := by
  have hschema := h.schema
  constructor
  · intro hraw
    rw [(isRaw_iff.1 hraw).2] at hschema
    exact congrArg₂ Attributes.mk hschema (hspelled.bare hraw)
  · intro _
    cases htype : n.type? with
    | none =>
      rw [htype] at hschema
      exact Attributes.restore_of_open h.record hschema (hspelled.valued hschema)
    | some t =>
      rw [htype] at hschema
      exact Attributes.restore_of_fixed h.record hschema (h.distinct_names hr htype)
        hspelled.defaults

end IsRead

/-- A tree of nodes that were read is read again as the restored tree. -/
theorem parseWith_toXml_of_isRead {t : Node} (hraw : t.isRaw = false)
    (ht : t.Everywhere (IsRead r)) (hwritable : t.Everywhere IsWritable) :
    Node.parseWith r t.toXml = .ok t.restored := by
  rw [parseWith_toXml hwritable]
  exact build_restored (ht.mono fun n hn => hn.toIsShaped) hraw

/-- A document of one element is read into what is built from the element. -/
theorem parse_of_scan {s : String} {t : Node} {tokens : List Token} (root : Item)
    (hscan : scan s = ⟨tokens, none⟩) (hrow : forest? tokens = some [root])
    (hroot : root.isElement = true) (hbuild : root.build .builtins = .ok t) :
    Node.parse s = .ok t := by
  rw [← hbuild]
  refine parseWith_of_forest (by rw [hscan]) (by rw [hscan]; exact hrow) ?_
  simp [Item.elements, hroot]

end Node

end CitationLocale
