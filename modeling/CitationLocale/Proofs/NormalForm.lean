import Mathlib.Data.List.Forall2
import CitationLocale.Proofs.Filling

/-!
# The normal form of trees that are read

Whatever the document and the registry are, a tree that is read is in normal form: text stands in
elements only, is not blank and not next to other text, and every record is complete
(`Node.IsNormal`). If the registry gives terms and term tables their usual names, it would make
every node of the tree again under the name of the node (`Registry.Makes`).
-/

namespace CitationLocale

open Markup Text

/-! ## Records -/

namespace Attributes

/-- An entry has the name that the schema declares, and a value if there is a default for it. -/
def Fits (e : String × Option String) (spec : AttributeSpec) : Prop :=
  e.1 = spec.name ∧ (spec.default?.isSome = true → e.2.isSome = true)

/-- In a normal record no name is without a value that could have one: an open record holds each
name once and with a value, a fixed one holds the names of its schema in order and a value wherever
the schema declares a default. -/
structure IsNormal (r : Attributes) : Prop where
  nodup : r.schema? = none → r.keys.Nodup
  valued : r.schema? = none → ∀ e ∈ r.entries, e.2.isSome = true
  fixed : ∀ schema, r.schema? = some schema → List.Forall₂ Fits r.entries schema

theorem forall_replaceFirst {P : String × Option String → Prop} {key value : String}
    {es : List (String × Option String)} (hvalue : P (key, some value)) (h : ∀ e ∈ es, P e) :
    ∀ e ∈ replaceFirst key (some value) es, P e := by
  induction es with
  | nil => exact h
  | cons e es ih =>
    obtain ⟨k, v⟩ := e
    rw [List.forall_mem_cons] at h
    rw [replaceFirst]
    split_ifs with hk
    · subst hk
      exact List.forall_mem_cons.2 ⟨hvalue, h.2⟩
    · exact List.forall_mem_cons.2 ⟨h.1, ih h.2⟩

theorem forall₂_replaceFirst {key value : String} {es : List (String × Option String)}
    {schema : Schema} (h : List.Forall₂ Fits es schema) :
    List.Forall₂ Fits (replaceFirst key (some value) es) schema := by
  induction h with
  | nil => exact .nil
  | @cons e spec es schema he hes ih =>
    obtain ⟨k, v⟩ := e
    rw [replaceFirst]
    split_ifs
    · exact .cons ⟨he.1, fun _ => rfl⟩ hes
    · exact .cons he ih

theorem IsNormal.set {r : Attributes} (h : r.IsNormal) (key value : String) :
    (r.set key value).IsNormal := by
  by_cases hmem : key ∈ r.keys
  · rw [set_of_mem hmem]
    refine ⟨fun hopen => ?_, fun hopen => ?_, fun schema hfixed => ?_⟩
    · rw [keys, keys_replaceFirst]
      exact h.nodup hopen
    · exact forall_replaceFirst rfl (h.valued hopen)
    · exact forall₂_replaceFirst (h.fixed schema hfixed)
  · by_cases hopen : r.schema? = none
    · rw [set_of_open hmem hopen]
      refine ⟨fun _ => ?_, fun _ => ?_, fun schema hfixed => ?_⟩
      · have hkeys : (⟨r.schema?, r.entries ++ [(key, some value)]⟩ : Attributes).keys =
            r.keys.concat key := by simp [keys]
        rw [hkeys]
        exact List.Nodup.concat hmem (h.nodup hopen)
      · intro e he
        rcases List.mem_append.1 he with he | he
        · exact h.valued hopen e he
        · rw [List.mem_singleton.1 he]
          rfl
      · exact absurd (hopen.symm.trans hfixed) (by simp)
    · rwa [set_of_not_admits (not_or.2 ⟨hmem, hopen⟩)]

theorem IsNormal.extend {r : Attributes} (h : r.IsNormal) (pairs : List (String × String)) :
    (r.extend pairs).IsNormal := by
  induction pairs generalizing r with
  | nil => exact h
  | cons p pairs ih => exact ih (h.set p.1 p.2)

theorem isNormal_defaults (schema : Schema) : (defaults schema).IsNormal := by
  refine ⟨fun h => ?_, fun h => ?_, fun sc h => ?_⟩
  · simp [defaults] at h
  · simp [defaults] at h
  obtain rfl : schema = sc := by simpa [defaults] using h
  rw [defaults, List.forall₂_map_left_iff, List.forall₂_same]
  exact fun spec _ => ⟨rfl, id⟩

theorem IsNormal.isSound {r : Attributes} (h : r.IsNormal) : r.IsSound := by
  refine ⟨h.nodup, fun schema hfixed => ?_⟩
  have hfits := h.fixed schema hfixed
  rw [Attributes.keys]
  generalize r.entries = es at hfits
  clear hfixed
  induction hfits with
  | nil => rfl
  | cons he _ ih => rw [List.map_cons, List.map_cons, he.1, ih]

/-- In a normal record every name with a default has a value. -/
theorem IsNormal.isSome_get? {r : Attributes} (h : r.IsNormal) {k : String}
    (hdefault : (r.default? k).isSome = true) : (r.get? k).isSome = true := by
  cases hschema : r.schema? with
  | none => simp [default?, hschema] at hdefault
  | some schema =>
    have hfits := h.fixed schema hschema
    rw [default?_of_fixed hschema, get?_defaults] at hdefault
    rw [get?]
    generalize r.entries = es at hfits
    clear hschema
    induction hfits with
    | nil => simp at hdefault
    | @cons e spec es schema he _ ih =>
      obtain ⟨key, value?⟩ := e
      obtain ⟨rfl, hvalue⟩ : key = spec.name ∧ _ := he
      by_cases hk : k = spec.name
      · subst hk
        simp only [List.find?_cons, beq_self_eq_true, Option.bind_some] at hdefault
        simpa using hvalue hdefault
      · rw [List.lookup_cons, beq_false_of_ne hk]
        rw [List.find?_cons, beq_false_of_ne (Ne.symm hk)] at hdefault
        exact ih hdefault

theorem isNormal_ofPairs (pairs : List (String × String)) : (ofPairs pairs).IsNormal := by
  have hempty : empty.IsNormal := by
    refine ⟨fun _ => List.nodup_nil, fun _ e he => absurd he List.not_mem_nil, fun schema h => ?_⟩
    simp [empty] at h
  exact hempty.extend pairs

end Attributes

theorem isNormal_createAttributes {supplied : Attributes} (h : supplied.IsNormal)
    (type? : Option NodeType) : (createAttributes type? supplied).IsNormal := by
  cases type? with
  | none => exact h
  | some t => exact (Attributes.isNormal_defaults t.schema).extend supplied.assigned

theorem schema?_createAttributes {supplied : Attributes} (h : supplied.schema? = none)
    (type? : Option NodeType) :
    (createAttributes type? supplied).schema? = type?.map NodeType.schema := by
  cases type? with
  | none => exact h
  | some t => exact Attributes.schema?_extend _ _

/-! ## What an element is built into -/

namespace Markup.Item

variable {r : Registry}

/-- The nodes that content can make: an element with the children it stands for, text, a term with
text or forms, or a term table. -/
inductive Fills (r : Registry) (content : List Item) : Node → Prop
  | element {type? : Option NodeType} {name : String} {attributes : Attributes} {ns : List Node} :
      ChildrenOf r "" content ns → Fills r content (.element type? name attributes ns)
  | text (t : TextNode) : Fills r content (.text t)
  | flat (attributes : Attributes) (s : String) : Fills r content (.term ⟨attributes, .flat s⟩)
  | forms {attributes : Attributes} {forms : List TextNode} :
      (∀ form ∈ forms, form.IsForm ∧ ∃ i ∈ content, i.build r = .ok (.text form)) →
      Fills r content (.term (forms.foldl Term.withForm ⟨attributes, .forms none none⟩))
  | terms {ts : List Term} : (∀ t ∈ ts, ∃ i ∈ content, i.build r = .ok (.term t)) →
      Fills r content (.terms (.ofTerms ts))

theorem fills_of_build {name : String} {attributes : List (String × String)} {content : List Item}
    {n : Node} (h : build r (.element name attributes content) = .ok n) : Fills r content n := by
  obtain ⟨-, hfill⟩ := build_element_eq_ok.1 h
  obtain ⟨o, hopen, hfinish⟩ := Result.bind_eq_ok.1 hfill
  cases hcreate : r.create name (.ofPairs attributes) with
  | element type? name' attributes' children =>
    obtain rfl : children = [] := by
      have hchildren := r.children_create name (.ofPairs attributes)
      rwa [hcreate] at hchildren
    obtain ⟨ns, hns⟩ := exists_childrenOf "" (exists_build_of_fill hopen)
    rw [hcreate, fill_element hns (by simp)] at hfill
    obtain rfl := Except.ok.inj hfill
    exact .element hns
  | text t =>
    have hkind : n.kind = .text := by
      rw [Node.kind_eq_of_head (OpenNode.head_finish hfinish),
        Node.kind_eq_of_head (head_fill r hopen), hcreate]
      rfl
    cases n with
    | text t => exact .text t
    | element | term | terms => simp [Node.kind] at hkind
  | term t =>
    obtain rfl := Registry.eq_of_create_term hcreate
    rw [hcreate] at hfill
    by_cases helements : elements content = []
    · rw [fill_of_elements_eq_nil helements] at hfill
      obtain rfl := Except.ok.inj hfill
      exact .flat _ _
    · obtain ⟨-, forms, hbuild, hforms, rfl⟩ := (fill_term_eq_ok rfl (.inl helements)).1 hfill
      exact .forms fun form hform => ⟨hforms form hform, (exists_of_map_build hbuild).2 form hform⟩
  | terms table =>
    obtain rfl := Registry.eq_of_create_terms hcreate
    rw [hcreate] at hfill
    obtain ⟨-, ts, hbuild, rfl⟩ := fill_terms_eq_ok.1 hfill
    exact .terms (exists_of_map_build hbuild).2

end Markup.Item

/-- A text node is that of the form which holds what it holds. -/
theorem FormNode.node_ofNode {t : TextNode} {type : Builtin}
    (h : t.type? = some (.builtin type)) : (ofNode t).node type = t := by
  rw [node, ← h]
  rfl

theorem Term.mem_formNodes_withForm {t : Term} {form f : TextNode} (hform : form.IsForm)
    (h : f ∈ (t.withForm form).formNodes) : f ∈ t.formNodes ∨ f = form := by
  rcases hform with htype | htype
  · rw [withForm, if_pos htype] at h
    exact (mem_formNodes_putSingle h).imp_right fun hf => hf.trans (FormNode.node_ofNode htype)
  · rw [withForm, if_neg (by simp [htype])] at h
    exact (mem_formNodes_putMultiple h).imp_right fun hf => hf.trans (FormNode.node_ofNode htype)

/-- Every form of a term is one that was put there. -/
theorem Term.mem_formNodes_foldl {t : Term} {forms : List TextNode} {f : TextNode}
    (hforms : ∀ form ∈ forms, form.IsForm) (h : f ∈ (forms.foldl Term.withForm t).formNodes) :
    f ∈ t.formNodes ∨ f ∈ forms := by
  induction forms generalizing t with
  | nil => exact .inl h
  | cons form forms ih =>
    rw [List.forall_mem_cons] at hforms
    rcases ih hforms.2 h with h | h
    · rcases mem_formNodes_withForm hforms.1 h with h | rfl
      · exact .inl h
      · exact .inr List.mem_cons_self
    · exact .inr (List.mem_cons_of_mem form h)

namespace Markup.Item

/-- The nodes below a built node: raw text that is not blank, in elements only, and what is built
from the content. -/
theorem mem_children_of_fills {r : Registry} {content : List Item} {n c : Node}
    (h : Fills r content n) (hc : c ∈ n.children) :
    (n.kind = .element ∧ ∃ s, isBlank s = false ∧ c = .text (.raw s)) ∨
      ∃ i ∈ content, i.build r = .ok c := by
  cases h with
  | element hns =>
    rcases mem_of_childrenOf hns hc with h | h
    · exact .inl ⟨rfl, h⟩
    · exact .inr h
  | text t => exact absurd hc List.not_mem_nil
  | flat attributes s => exact absurd hc List.not_mem_nil
  | @forms attributes forms hforms =>
    obtain ⟨f, hf, rfl⟩ := List.mem_map.1 hc
    rcases Term.mem_formNodes_foldl (fun form hform => (hforms form hform).1) hf with h | hform
    · exact absurd h List.not_mem_nil
    · exact .inr (hforms f hform).2
  | @terms ts hts =>
    obtain ⟨t, ht, rfl⟩ := List.mem_map.1 hc
    exact .inr (hts t ht)

/-- What holds of raw text and of every node built from an item of some kind holds everywhere in a
tree built from an item of this kind, if all items in its content are of this kind too. -/
theorem everywhere_build_of {r : Registry} {K : Item → Prop} {P : Node → Prop}
    (hcontent : ∀ name attributes content, K (.element name attributes content) →
      ∀ i ∈ content, K i)
    (hbuild : ∀ i n, K i → build r i = .ok n → P n) (hraw : ∀ s, P (.text (.raw s)))
    {i : Item} {n : Node} (hi : K i) (h : i.build r = .ok n) : n.Everywhere P := by
  induction i using Item.inductionOn generalizing n with
  | element name attributes content ih =>
    have hbelow := hcontent name attributes content hi
    refine .intro (hbuild _ n hi h) fun c hc => ?_
    rcases mem_children_of_fills (fills_of_build h) hc with ⟨-, s, -, rfl⟩ | ⟨i, hmem, hc⟩
    · exact .intro (hraw s) fun d hd => absurd hd List.not_mem_nil
    · exact ih i hmem (hbelow i hmem) hc
  | empty name attributes =>
    refine .intro (hbuild _ n hi h) fun c hc => ?_
    obtain rfl := Except.ok.inj h
    rw [Registry.children_create] at hc
    exact absurd hc List.not_mem_nil
  | text | aside => simp [build] at h

/-- What holds of raw text and of every built node holds everywhere in a built tree. -/
theorem everywhere_build {r : Registry} {P : Node → Prop}
    (hbuild : ∀ i n, build r i = .ok n → P n) (hraw : ∀ s, P (.text (.raw s)))
    {i : Item} {n : Node} (h : i.build r = .ok n) : n.Everywhere P :=
  everywhere_build_of (K := fun _ => True) (fun _ _ _ _ _ _ => trivial)
    (fun i n _ => hbuild i n) hraw trivial h

end Markup.Item

/-! ## Nodes -/

/-- What holds of a single node in a tree in normal form: its record is normal and that of its type;
raw text below it is in an element, is not blank and not next to other raw text; and if it is a
term, it has not both text and forms. -/
structure Node.IsNormal (n : Node) : Prop where
  record : n.attributes.IsNormal
  schema : n.attributes.schema? = n.type?.map NodeType.schema
  text : ∀ t : TextNode, .text t ∈ n.children → t.isRaw = true →
    n.kind = .element ∧ isBlank t.text = false
  apart : n.children.IsChain fun a b => ¬ (a.isRaw = true ∧ b.isRaw = true)
  exclusive : ∀ t : Term, n = .term t → t.text? = none ∨ t.hasForms = false

theorem Node.isNormal_text {t : TextNode} (hrecord : t.attributes.IsNormal)
    (hschema : t.attributes.schema? = t.type?.map NodeType.schema) : (Node.text t).IsNormal := by
  refine ⟨hrecord, hschema, fun u hu => ?_, .nil, fun u hu => by simp at hu⟩
  exact absurd hu List.not_mem_nil

theorem Registry.record_create (r : Registry) (name : String)
    (pairs : List (String × String)) : (r.create name (.ofPairs pairs)).attributes.IsNormal ∧
      (r.create name (.ofPairs pairs)).attributes.schema? =
        (r.create name (.ofPairs pairs)).type?.map NodeType.schema := by
  have hnormal := Attributes.isNormal_ofPairs pairs
  have hopen : (Attributes.ofPairs pairs).schema? = none := Attributes.schema?_extend .empty pairs
  rw [create_eq]
  cases r.lookup? name with
  | none => exact ⟨hnormal, hopen⟩
  | some t =>
    dsimp only
    cases t.variant with
    | branch | leaf =>
      have hschema := schema?_createAttributes hopen (some t)
      exact ⟨(isNormal_createAttributes hnormal (some t) :), hschema⟩
    | term =>
      have hschema := schema?_createAttributes hopen (some (.builtin .term))
      exact ⟨(isNormal_createAttributes hnormal (some (.builtin .term)) :), hschema⟩
    | termTable =>
      have hrecord := isNormal_createAttributes hnormal (some (.builtin .terms))
      rw [createAttributes_of_nil rfl] at hrecord
      exact ⟨hrecord, rfl⟩

namespace Markup.Item

variable {r : Registry}

/-- Raw text in a built node is in an element, and is not blank. -/
theorem text_of_build {i : Item} {n : Node} (h : i.build r = .ok n) {t : TextNode}
    (ht : .text t ∈ n.children) (hraw : t.isRaw = true) :
    n.kind = .element ∧ isBlank t.text = false := by
  cases i with
  | element name attributes content =>
    rcases mem_children_of_fills (fills_of_build h) ht with ⟨hkind, s, hs, heq⟩ | ⟨i, -, hbuild⟩
    · obtain rfl := Node.text.inj heq
      exact ⟨hkind, hs⟩
    · have hnot : t.isRaw = false := isRaw_build r hbuild
      simp [hraw] at hnot
  | empty name attributes =>
    obtain rfl := Except.ok.inj h
    rw [Registry.children_create] at ht
    exact absurd ht List.not_mem_nil
  | text | aside => simp [build] at h

/-- No raw text in a built node is next to other raw text. -/
theorem apart_of_build {i : Item} {n : Node} (h : i.build r = .ok n) :
    n.children.IsChain fun a b => ¬ (a.isRaw = true ∧ b.isRaw = true) := by
  by_cases hkind : n.kind = .element
  · cases i with
    | element name attributes content =>
      cases fills_of_build h with
      | element hns => exact apart_of_childrenOf hns
      | text | flat | forms | terms => simp [Node.kind] at hkind
    | empty name attributes =>
      obtain rfl := Except.ok.inj h
      rw [Registry.children_create]
      exact .nil
    | text | aside => simp [build] at h
  · apply List.Pairwise.isChain
    apply List.pairwise_of_forall_mem_list
    intro c hc d _ hraw
    cases c with
    | text t => exact hkind (text_of_build h hc hraw.1).1
    | element | term | terms => simp [Node.isRaw] at hraw

theorem isNormal_build {i : Item} {n : Node} (h : i.build r = .ok n) : n.IsNormal := by
  obtain ⟨hrecord, hschema⟩ := r.record_create i.name i.start.2
  have hhead : n.head = (r.create i.name (.ofPairs i.start.2)).head := head_build r h
  rw [← Node.attributes_eq_of_head hhead] at hrecord hschema
  rw [← Node.type?_eq_of_head hhead] at hschema
  refine ⟨hrecord, hschema, fun t ht => text_of_build h ht, apart_of_build h, fun t _ => ?_⟩
  obtain ⟨attributes, s | ⟨s?, m?⟩⟩ := t
  · exact .inr rfl
  · exact .inl rfl

theorem makes_build (hr : r.HasUsualNames) {i : Item} {n : Node} (h : i.build r = .ok n) :
    r.Makes n := by
  have hhead : n.head = (r.create i.name (.ofPairs i.start.2)).head := head_build r h
  exact (Registry.makes_create hr _ _).of_eq (Node.kind_eq_of_head hhead)
    (Node.type?_eq_of_head hhead) (Node.name_eq_of_head hhead)

end Markup.Item

/-! ## Whole trees -/

/-- A tree that is read from a document, whatever the registry is, is in normal form. If all types
of terms and term tables have the usual names, every node but raw text is of the kind and the type
that the registry gives to its name. -/
theorem Node.isNormal_of_parseWith (r : Registry) (s : String) (t : Node)
    (h : Node.parseWith r s = .ok t) :
    t.isRaw = false ∧ t.Everywhere IsNormal ∧
      (r.HasUsualNames → t.Everywhere fun n => n.isRaw = false → r.Makes n) := by
  obtain ⟨-, row, root, -, -, hbuild⟩ := parseWith_eq_ok.1 h
  have hempty : Attributes.empty.IsNormal := Attributes.isNormal_ofPairs []
  have hraw (s : String) : (Node.text (.raw s)).IsNormal := isNormal_text hempty rfl
  refine ⟨Item.isRaw_build r hbuild, ?_, fun hr => ?_⟩
  · exact Item.everywhere_build (fun i n h => Item.isNormal_build h) hraw hbuild
  · refine Item.everywhere_build (P := fun n => n.isRaw = false → r.Makes n)
      (fun i n h _ => Item.makes_build hr h) (fun s h => ?_) hbuild
    simp [isRaw, TextNode.raw, TextNode.isRaw] at h

theorem Registry.hasUsualNames_builtins : builtins.HasUsualNames := by
  unfold HasUsualNames
  decide +kernel

/-- Raw text in an element, read with the built-in types. -/
theorem Node.isNormal_of_mixed_content :
    ∃ t, Node.parseWith .builtins "<a>x<b/>y</a>" = .ok t ∧ t.Everywhere IsNormal ∧
      t.Everywhere fun n => n.isRaw = false → Registry.builtins.Makes n := by
  have hscan : scan "<a>x<b/>y</a>" =
      ⟨[.start "a" [], .text "x", .empty "b" [], .text "y", .close "a"], none⟩ := by
    decide +kernel
  have hrow : forest? (scan "<a>x<b/>y</a>").tokens =
      some [.element "a" [] [.text "x", .empty "b" [], .text "y"]] := by
    rw [hscan]
    rfl
  have hbuild : (Item.element "a" [] [.text "x", .empty "b" [], .text "y"]).build .builtins =
      .ok (.element none "a" .empty
        [.text (.raw "x"), .element none "b" .empty [], .text (.raw "y")]) := by
    rfl
  have h := parseWith_of_forest (r := .builtins) (by rw [hscan]) hrow rfl
  rw [hbuild] at h
  obtain ⟨-, hnormal, hmakes⟩ := isNormal_of_parseWith _ _ _ h
  exact ⟨_, h, hnormal, hmakes Registry.hasUsualNames_builtins⟩

end CitationLocale
