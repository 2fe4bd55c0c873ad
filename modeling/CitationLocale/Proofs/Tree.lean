import Mathlib.Data.List.Basic
import CitationLocale.Document.Builder
import CitationLocale.Node.Comparison
import CitationLocale.Proofs.Attachment
import CitationLocale.Proofs.Record

/-!
# Trees of nodes

A property holds everywhere in a tree if it holds at the root and everywhere below it
(`Node.Everywhere`); the outline of a node shows its label and the outlines of its children
(`Node.outline_eq`). Adding children or text to a node keeps its kind, type, name and record
(`Node.head_append`, `Node.head_pushText`), and a node that a registry creates has the name of its
type (`Registry.name_create`).
-/

namespace CitationLocale

/-- The four kinds of nodes. -/
inductive Kind where
  | element
  | text
  | term
  | terms
deriving DecidableEq, Repr

namespace Node

/-- The kind of a node. -/
def kind : Node → Kind
  | .element .. => .element
  | .text _ => .text
  | .term _ => .term
  | .terms _ => .terms

/-! ## Properties of whole trees -/

/-- A property holds at a node and at every node below it. -/
inductive Everywhere (P : Node → Prop) : Node → Prop
  | intro {n : Node} : P n → (∀ c ∈ n.children, Everywhere P c) → Everywhere P n

theorem Everywhere.root {P : Node → Prop} {n : Node} (h : Everywhere P n) : P n :=
  h.casesOn fun hn _ => hn

theorem Everywhere.of_mem {P : Node → Prop} {n : Node} (h : Everywhere P n) :
    ∀ c ∈ n.children, Everywhere P c :=
  h.casesOn fun _ hc => hc

theorem Everywhere.and {P Q : Node → Prop} {n : Node} (hP : Everywhere P n)
    (hQ : Everywhere Q n) : Everywhere (fun n => P n ∧ Q n) n := by
  induction hP with
  | intro hn _ ih => exact .intro ⟨hn, hQ.root⟩ fun c hc => ih c hc (hQ.of_mem c hc)

theorem Everywhere.mono {P Q : Node → Prop} (hPQ : ∀ n, P n → Q n) {n : Node}
    (h : Everywhere P n) : Everywhere Q n := by
  induction h with
  | intro hn _ ih => exact .intro (hPQ _ hn) ih

theorem outlines_eq (ns : List Node) : outlines ns = ns.map outline := by
  induction ns with
  | nil => rfl
  | cons n ns ih => rw [outlines, ih, List.map_cons]

/-- An outline shows the label of its node above the outlines of the children. -/
theorem outline_eq (n : Node) : n.outline = .node n.label (n.children.map outline) := by
  cases n with
  | element type? name attributes ns => rw [outline, outlines_eq]; rfl
  | text t => rfl
  | term t =>
    rw [outline, Term.outline, children, List.map_map]
    rfl
  | terms table =>
    rw [outline, TermTable.outline, children, List.map_map]
    rfl

theorem label_outline (n : Node) : n.outline.label = n.label := by
  rw [outline_eq, Outline.label]

/-! ## Comparing a tree with itself -/

theorem compareText_self (s : String) : compareText s s = .eq := by
  rw [compareText, if_neg (String.lt_irrefl s), if_pos rfl]

/-- A tree of sound records equals itself. -/
theorem compare?_self {n : Node} (h : n.Everywhere fun m => m.attributes.IsSound) :
    n.compare? n = some .eq := by
  rw [compare?]
  induction h with
  | @intro n hn _ ih =>
    have hchildren : Outline.compareChildren? (n.children.map outline) (n.children.map outline) =
        some .eq := by
      revert ih
      induction n.children with
      | nil => intro _; rfl
      | cons c cs ihc =>
        intro ih
        rw [List.forall_mem_cons] at ih
        rw [List.map_cons, Outline.compareChildren?, ih.1]
        exact ihc ih.2
    have hagrees : n.label.attributes.agrees n.label.attributes = true := hn.agrees_self
    rw [outline_eq, Outline.compare?, compareText_self]
    simp only [hagrees, if_true]
    cases n.label.text? with
    | some s => exact congrArg some (compareText_self s)
    | none => exact hchildren

/-! ## What growing leaves as it is -/

/-- What a node is before it has any content. -/
def head (n : Node) : Kind × Option NodeType × String × Attributes :=
  (n.kind, n.type?, n.name, n.attributes)

theorem kind_eq_of_head {m n : Node} (h : m.head = n.head) : m.kind = n.kind :=
  congrArg Prod.fst h

theorem type?_eq_of_head {m n : Node} (h : m.head = n.head) : m.type? = n.type? :=
  congrArg (·.2.1) h

theorem name_eq_of_head {m n : Node} (h : m.head = n.head) : m.name = n.name :=
  congrArg (·.2.2.1) h

theorem attributes_eq_of_head {m n : Node} (h : m.head = n.head) : m.attributes = n.attributes :=
  congrArg (·.2.2.2) h

theorem isRaw_iff {n : Node} : n.isRaw = true ↔ n.kind = .text ∧ n.type? = none := by
  cases n <;> simp [isRaw, kind, type?, TextNode.isRaw]

theorem isRaw_eq_of_head {m n : Node} (h : m.head = n.head) : m.isRaw = n.isRaw := by
  rw [Bool.eq_iff_iff, isRaw_iff, isRaw_iff, kind_eq_of_head h, type?_eq_of_head h]

end Node

/-- A form of a type without attributes holds a text and nothing else. -/
theorem FormNode.ofNode_typed {type : Builtin} (h : type.declaration.schema = [])
    (supplied : Attributes) (s : String) :
    ofNode (.typed (.builtin type) supplied s) = ofText type s := by
  have hrecord (supplied : Attributes) :
      createAttributes (some (.builtin type)) supplied = .blank (NodeType.builtin type).schema :=
    createAttributes_of_nil (t := .builtin type) h supplied
  rw [ofText, ofNode, ofNode, TextNode.typed, TextNode.typed, hrecord, hrecord]

namespace Term

theorem mem_formNodes {t : Term} {f : TextNode} (h : f ∈ t.formNodes) :
    ∃ form : FormNode, f = form.node .single ∨ f = form.node .multiple := by
  rcases List.mem_append.1 h with h | h
  · obtain ⟨form, -, rfl⟩ := Option.map_eq_some_iff.1 (Option.mem_toList.1 h)
    exact ⟨form, .inl rfl⟩
  · obtain ⟨form, -, rfl⟩ := Option.map_eq_some_iff.1 (Option.mem_toList.1 h)
    exact ⟨form, .inr rfl⟩

theorem mem_formNodes_putSingle {t : Term} {form : FormNode} {f : TextNode}
    (h : f ∈ (t.putSingle form).formNodes) : f ∈ t.formNodes ∨ f = form.node .single := by
  rcases List.mem_append.1 h with h | h
  · exact .inr (List.mem_singleton.1 h)
  · exact .inl (List.mem_append_right _ h)

theorem mem_formNodes_putMultiple {t : Term} {form : FormNode} {f : TextNode}
    (h : f ∈ (t.putMultiple form).formNodes) : f ∈ t.formNodes ∨ f = form.node .multiple := by
  rcases List.mem_append.1 h with h | h
  · exact .inl (List.mem_append_left _ h)
  · exact .inr (List.mem_singleton.1 h)

end Term

namespace Node

theorem head_of_add_term {t : Term} {a : Addition} {n : Node} (h : (Node.term t).add a = .ok n) :
    n.head = (Node.term t).head := by
  obtain ⟨p, s, -, -, rfl⟩ := add_term_eq_ok.1 h
  simp [head, kind, type?, name, attributes]

theorem head_append {node child n : Node} (h : node.append child = .ok n) : n.head = node.head := by
  cases node with
  | element type? name attributes children =>
    obtain rfl := Except.ok.inj h; rfl
  | text t => simp [append] at h
  | term t => exact head_of_add_term (a := .child child) h
  | terms table =>
    cases child with
    | term t => obtain rfl := Except.ok.inj h; rfl
    | element | text | terms => simp [append] at h

theorem head_pushText {node n : Node} {s : String} (h : node.pushText s = .ok n) :
    n.head = node.head := by
  cases node with
  | element | text => obtain rfl := Except.ok.inj h; rfl
  | term t => exact head_of_add_term (a := .text s) h
  | terms table =>
    simp only [pushText] at h
    split_ifs at h
    obtain rfl := Except.ok.inj h; rfl

end Node

/-! ## Nodes as a registry creates them -/

/-- The node without content that stands at the start of reading a written node. -/
def Node.emptied (supplied : Attributes) : Node → Node
  | .element type? name _ _ => .element type? name (createAttributes type? supplied) []
  | .text t => .text ⟨t.type?, createAttributes t.type? supplied, ""⟩
  | .term _ => .term (.create supplied)
  | .terms _ => .terms .empty

theorem Node.emptied_congr {m n : Node} (hkind : m.kind = n.kind) (htype : m.type? = n.type?)
    (hname : m.kind = .element → m.name = n.name) (supplied : Attributes) :
    m.emptied supplied = n.emptied supplied := by
  cases m with
  | element type? name attributes children =>
    cases n with
    | element type?' name' attributes' children' =>
      obtain rfl : type? = type?' := htype
      obtain rfl : name = name' := hname rfl
      rfl
    | text | term | terms => simp [kind] at hkind
  | text t =>
    cases n with
    | text u =>
      have htype : t.type? = u.type? := htype
      rw [emptied, emptied, htype]
    | element | term | terms => simp [kind] at hkind
  | term t =>
    cases n with
    | term u => rfl
    | element | text | terms => simp [kind] at hkind
  | terms table =>
    cases n with
    | terms other => rfl
    | element | text | term => simp [kind] at hkind

namespace Registry

variable {r : Registry} {name : String} {supplied : Attributes}

theorem name_of_lookup? {t : NodeType} (h : r.lookup? name = some t) : t.name = name := by
  simpa using List.find?_some h

/-- What a registry creates for a name, by the variant of the type with this name. -/
theorem create_eq (r : Registry) (name : String) (supplied : Attributes) :
    r.create name supplied =
      match r.lookup? name with
      | none => .generic name supplied
      | some t =>
        match t.variant with
        | .branch => .element (some t) name (createAttributes (some t) supplied) []
        | .leaf => .text (.typed t supplied "")
        | .term => .term (.create supplied)
        | .termTable => .terms .empty := by
  unfold create instantiate
  cases h : r.lookup? name with
  | none => rfl
  | some t =>
    obtain rfl := name_of_lookup? h
    rfl

/-- A registry never creates raw text. -/
theorem isRaw_create (r : Registry) (name : String) (supplied : Attributes) :
    (r.create name supplied).isRaw = false := by
  rw [create_eq]
  split
  · rfl
  · split <;> rfl

/-- A new node has no content. -/
theorem children_create (r : Registry) (name : String) (supplied : Attributes) :
    (r.create name supplied).children = [] := by
  rw [create_eq]
  split
  · rfl
  · split <;> rfl

/-- A created term has no content. -/
theorem eq_of_create_term {t : Term} (h : r.create name supplied = .term t) :
    t = .create supplied := by
  rw [create_eq] at h
  split at h
  · simp [Node.generic] at h
  · split at h <;> simp_all

/-- A created term table has no terms. -/
theorem eq_of_create_terms {table : TermTable} (h : r.create name supplied = .terms table) :
    table = .empty := by
  rw [create_eq] at h
  split at h
  · simp [Node.generic] at h
  · split at h <;> simp_all

/-- A registry makes a node what it is: creating a node with the name of the given one yields its
kind and its type. -/
def Makes (r : Registry) (n : Node) : Prop :=
  ∀ supplied, (r.create n.name supplied).kind = n.kind ∧ (r.create n.name supplied).type? = n.type?

theorem Makes.of_eq {m n : Node} (h : r.Makes m) (hkind : n.kind = m.kind)
    (htype : n.type? = m.type?) (hname : n.name = m.name) : r.Makes n := by
  unfold Makes
  rw [hkind, htype, hname]
  exact h

/-- All types of terms and of term tables have the names under which these are written. -/
def HasUsualNames (r : Registry) : Prop :=
  ∀ t ∈ r.types, (t.variant = .term → t.name = "term") ∧ (t.variant = .termTable → t.name = "terms")

theorem name_create (h : r.HasUsualNames) (name : String) (supplied : Attributes) :
    (r.create name supplied).name = name := by
  rw [create_eq]
  cases hlookup : r.lookup? name with
  | none => rfl
  | some t =>
    obtain rfl := name_of_lookup? hlookup
    obtain ⟨hterm, hterms⟩ := h t (List.mem_of_find?_eq_some hlookup)
    dsimp only
    cases hvariant : t.variant with
    | branch | leaf => rfl
    | term => exact (hterm hvariant).symm
    | termTable => exact (hterms hvariant).symm

/-- With the usual names a registry makes what it created again. -/
theorem makes_create (h : r.HasUsualNames) (name : String) (supplied : Attributes) :
    r.Makes (r.create name supplied) := by
  intro supplied'
  rw [name_create h, create_eq, create_eq]
  cases r.lookup? name with
  | none => constructor <;> rfl
  | some t =>
    dsimp only
    cases t.variant <;> constructor <;> rfl

theorem emptied_create (r : Registry) (name : String) (supplied : Attributes) :
    (r.create name supplied).emptied supplied = r.create name supplied := by
  rw [create_eq]
  split
  · rfl
  · split <;> rfl

/-- An element is created with the name that was looked up. -/
theorem name_create_of_element (h : (r.create name supplied).kind = .element) :
    (r.create name supplied).name = name := by
  rw [create_eq] at h ⊢
  cases hlookup : r.lookup? name with
  | none => rfl
  | some t =>
    simp only [hlookup] at h ⊢
    cases hvariant : t.variant with
    | branch => rfl
    | leaf | term | termTable => simp [hvariant, Node.kind] at h

/-- A registry that makes a node creates it anew from its name. -/
theorem Makes.create_eq {n : Node} (h : r.Makes n) (supplied : Attributes) :
    r.create n.name supplied = n.emptied supplied := by
  obtain ⟨hkind, htype⟩ := h supplied
  rw [← emptied_create]
  exact Node.emptied_congr hkind htype name_create_of_element supplied

end Registry

end CitationLocale
