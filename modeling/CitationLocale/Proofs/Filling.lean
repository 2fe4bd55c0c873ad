import Mathlib.Data.List.Chain
import CitationLocale.Proofs.Building

/-!
# Filling a node of each kind

What the content of an element does to its node, kind by kind. An element takes every child and
each run of text that is not blank (`fill_element`); a text node takes text only
(`elements_eq_nil_of_fill_text`). A term without text and a term table are strict: beside their
children all text has to be blank (`fill_eq_ok_of_isStrict`), and the children are forms
(`fill_term_eq_ok`) or terms (`fill_terms_eq_ok`).
-/

namespace CitationLocale

open Markup Text

namespace Markup.Item

/-- What an element contains. -/
def content : Item → List Item
  | element _ _ content => content
  | _ => []

/-- The character data directly in some content. -/
def characterData : List Item → String
  | [] => ""
  | .text s :: row => s ++ characterData row
  | _ :: row => characterData row

theorem characterData_cons_of_isElement {i : Item} (h : i.isElement = true) (row : List Item) :
    characterData (i :: row) = characterData row := by
  cases i with
  | element | empty => rfl
  | text | aside => simp [isElement] at h

theorem elements_cons_of_isElement {i : Item} (h : i.isElement = true) (row : List Item) :
    elements (i :: row) = i :: elements row :=
  List.filter_cons_of_pos h

/-- An item that is no element adds its text to what is pending, and does nothing else. -/
theorem addTo_of_not_isElement (r : Registry) {i : Item} (row : List Item)
    (h : ¬ i.isElement = true) : ∃ s, (∀ o : OpenNode, i.addTo r o = .ok (o.addText s)) ∧
      characterData (i :: row) = s ++ characterData row ∧ elements (i :: row) = elements row := by
  cases i with
  | element | empty => exact absurd rfl h
  | text s => exact ⟨s, fun _ => rfl, rfl, rfl⟩
  | aside =>
    refine ⟨"", fun o => ?_, ?_, rfl⟩
    · rw [OpenNode.addText, String.append_empty]; rfl
    · rw [String.empty_append]; rfl

variable {r : Registry}

/-- Without elements filling only adds to the pending text. -/
theorem fill_of_elements_eq_nil {row : List Item} (h : elements row = []) (o : OpenNode) :
    fill r row o = .ok (o.addText (characterData row)) := by
  induction row generalizing o with
  | nil => simp [fill, characterData, OpenNode.addText]
  | cons i row ih =>
    cases i with
    | text s =>
      rw [fill, addTo, Result.ok_bind, ih h]
      simp [characterData, OpenNode.addText, String.append_assoc]
    | aside => rw [fill, addTo, Result.ok_bind, ih h, characterData]; simp
    | element | empty => simp [elements, isElement] at h

/-- A node that holds text takes all character data. -/
theorem fill_of_holdsText {row : List Item} (h : elements row = []) {n : Node}
    (hn : n.holdsText = true) :
    (fill r row ⟨n, ""⟩ >>= OpenNode.finish) = n.pushText (characterData row) := by
  rw [fill_of_elements_eq_nil h, Result.ok_bind, OpenNode.addText, String.empty_append]
  exact if_pos hn

/-- An element is built by filling what is created for its name, if this bears the name. -/
theorem build_element_eq_ok {name : String} {attributes : List (String × String)}
    {content : List Item} {n : Node} : build r (.element name attributes content) = .ok n ↔
      (r.create name (.ofPairs attributes)).name = name ∧
        (fill r content ⟨r.create name (.ofPairs attributes), ""⟩ >>= OpenNode.finish) = .ok n := by
  rw [build, Result.bind_eq_ok, Result.bind_eq_ok]
  constructor
  · rintro ⟨o, hfill, hclose⟩
    obtain ⟨hname, hfinish⟩ := OpenNode.closeAs_eq_ok.1 hclose
    have hkeep := Node.name_eq_of_head (head_fill r hfill)
    exact ⟨hkeep.symm.trans hname, o, hfill, hfinish⟩
  · rintro ⟨hname, o, hfill, hfinish⟩
    have hkeep := Node.name_eq_of_head (head_fill r hfill)
    exact ⟨o, hfill, OpenNode.closeAs_eq_ok.2 ⟨hkeep.trans hname, hfinish⟩⟩

/-- Every element in content that fills a node can be built. -/
theorem exists_build_of_fill {row : List Item} {o o' : OpenNode} (h : fill r row o = .ok o') :
    ∀ c ∈ elements row, ∃ n, c.build r = .ok n := by
  induction row generalizing o with
  | nil => simp [elements]
  | cons i row ih =>
    obtain ⟨next, hnext, h⟩ := Result.bind_eq_ok.1 h
    by_cases hi : i.isElement = true
    · rw [elements_cons_of_isElement hi]
      refine List.forall_mem_cons.2 ⟨?_, ih h⟩
      obtain ⟨n, hn, -⟩ := (addTo_eq_ok r hi).1 hnext
      exact ⟨n, hn⟩
    · rw [elements, List.filter_cons_of_neg hi]
      exact ih h

/-! ## Elements -/

/-- The child that a run of text becomes: none if it is blank. -/
def runNodes (run : String) : List Node :=
  if isBlank run then [] else [.text (.raw run)]

/-- The children that some content stands for, after a run of text: the built elements in order,
and between them the runs of text. -/
inductive ChildrenOf (r : Registry) : String → List Item → List Node → Prop
  | nil (run : String) : ChildrenOf r run [] (Item.runNodes run)
  | text {run s : String} {row : List Item} {ns : List Node} :
      ChildrenOf r (run ++ s) row ns → ChildrenOf r run (.text s :: row) ns
  | aside {run : String} {row : List Item} {ns : List Node} :
      ChildrenOf r run row ns → ChildrenOf r run (.aside :: row) ns
  | element {run : String} {i : Item} {row : List Item} {n : Node} {ns : List Node} :
      i.isElement = true → i.build r = .ok n → ChildrenOf r "" row ns →
      ChildrenOf r run (i :: row) (Item.runNodes run ++ n :: ns)

/-- Content of which every element can be built stands for some children. -/
theorem exists_childrenOf {row : List Item} (run : String)
    (h : ∀ c ∈ elements row, ∃ n, c.build r = .ok n) : ∃ ns, ChildrenOf r run row ns := by
  induction row generalizing run with
  | nil => exact ⟨_, .nil run⟩
  | cons i row ih =>
    by_cases hi : i.isElement = true
    · rw [elements_cons_of_isElement hi, List.forall_mem_cons] at h
      obtain ⟨⟨n, hn⟩, h⟩ := h
      obtain ⟨ns, hns⟩ := ih "" h
      exact ⟨_, .element hi hn hns⟩
    · rw [elements, List.filter_cons_of_neg hi] at h
      cases i with
      | element | empty => exact absurd rfl hi
      | text s =>
        obtain ⟨ns, hns⟩ := ih (run ++ s) h
        exact ⟨ns, .text hns⟩
      | aside =>
        obtain ⟨ns, hns⟩ := ih run h
        exact ⟨ns, .aside hns⟩

theorem mem_runNodes {run : String} {c : Node} :
    c ∈ Item.runNodes run ↔ isBlank run = false ∧ c = .text (.raw run) := by
  unfold Item.runNodes
  split_ifs with h <;> simp [h]

/-- The children that some content stands for are raw text that is not blank, and what is built
from the elements. -/
theorem mem_of_childrenOf {run : String} {row : List Item} {ns : List Node}
    (h : ChildrenOf r run row ns) {c : Node} (hc : c ∈ ns) :
    (∃ s, isBlank s = false ∧ c = .text (.raw s)) ∨ ∃ i ∈ row, i.build r = .ok c := by
  induction h with
  | nil run => exact .inl ⟨run, mem_runNodes.1 hc⟩
  | text _ ih | aside _ ih =>
    rcases ih hc with h | ⟨i, hi, hbuild⟩
    · exact .inl h
    · exact .inr ⟨i, List.mem_cons_of_mem _ hi, hbuild⟩
  | @element run i row n ns hi hbuild _ ih =>
    rcases List.mem_append.1 hc with hc | hc
    · exact .inl ⟨run, mem_runNodes.1 hc⟩
    rcases List.mem_cons.1 hc with rfl | hc
    · exact .inr ⟨i, List.mem_cons_self, hbuild⟩
    · rcases ih hc with h | ⟨j, hj, hbuild⟩
      · exact .inl h
      · exact .inr ⟨j, List.mem_cons_of_mem i hj, hbuild⟩

/-- Between two runs of text there is always an element. -/
theorem apart_of_childrenOf {run : String} {row : List Item} {ns : List Node}
    (h : ChildrenOf r run row ns) :
    ns.IsChain fun a b => ¬ (a.isRaw = true ∧ b.isRaw = true) := by
  have hrun (run : String) {n : Node} (hn : n.isRaw = false) :
      (Item.runNodes run ++ [n]).IsChain fun a b => ¬ (a.isRaw = true ∧ b.isRaw = true) := by
    unfold Item.runNodes
    split_ifs <;> simp [hn]
  induction h with
  | nil run =>
    unfold Item.runNodes
    split_ifs <;> simp
  | text _ ih | aside _ ih => exact ih
  | @element run i row n ns hi hbuild _ ih =>
    have hn : n.isRaw = false := isRaw_build r hbuild
    refine List.isChain_split.2 ⟨hrun run hn, List.isChain_cons.2 ⟨fun m _ => ?_, ih⟩⟩
    simp [hn]

theorem pushRaw_of_not_raw {ns : List Node} (h : ∀ n ∈ ns.getLast?, n.isRaw = false)
    (s : String) : Node.pushRaw s ns = ns ++ [.text (.raw s)] := by
  fun_induction Node.pushRaw s ns with
  | case1 => rfl
  | case2 t ht => simp [Node.isRaw, ht] at h
  | case3 t ht => rfl
  | case4 n ns _ ih =>
    rw [ih fun m hm => h m (by cases ns <;> simp_all), List.cons_append]

section

variable {type? : Option NodeType} {name : String} {attributes : Attributes} {done : List Node}

theorem flush_element (h : ∀ n ∈ done.getLast?, n.isRaw = false) (run : String) :
    OpenNode.flush ⟨.element type? name attributes done, run⟩ =
      .ok ⟨.element type? name attributes (done ++ Item.runNodes run), ""⟩ := by
  unfold OpenNode.flush Item.runNodes
  dsimp only
  split_ifs
  · rw [List.append_nil]
  · rw [Node.pushText, pushRaw_of_not_raw h]
    rfl

/-- An element takes all the children that its content stands for. -/
theorem fill_element {run : String} {row : List Item} {ns : List Node}
    (hchildren : Item.ChildrenOf r run row ns) (hdone : ∀ n ∈ done.getLast?, n.isRaw = false) :
    (fill r row ⟨.element type? name attributes done, run⟩ >>= OpenNode.finish) =
      .ok (.element type? name attributes (done ++ ns)) := by
  induction hchildren generalizing done with
  | nil run =>
    rw [fill, Result.ok_bind, OpenNode.finish, if_neg (by simp [Node.holdsText]),
      flush_element hdone]
    rfl
  | text _ ih => exact ih hdone
  | aside _ ih => exact ih hdone
  | @element run i row n ns hi hbuild _ ih =>
    have hn : n.isRaw = false := isRaw_build r hbuild
    have hadd : i.addTo r ⟨.element type? name attributes done, run⟩ =
        .ok ⟨.element type? name attributes (done ++ Item.runNodes run ++ [n]), ""⟩ := by
      refine (addTo_eq_ok r hi).2 ⟨n, hbuild, ?_⟩
      rw [OpenNode.append, flush_element hdone]
      rfl
    rw [fill, hadd, Result.ok_bind, ih (by simpa using hn)]
    simp

end

/-! ## Text nodes -/

theorem append_text_ne_ok {o o' : OpenNode} (ho : o.node.kind = .text) (child : Node) :
    o.append child ≠ .ok o' := by
  intro h
  obtain ⟨flushed, hflush, happend, -⟩ := OpenNode.append_eq_ok h
  have hkind : flushed.node.kind = .text := by
    rw [Node.kind_eq_of_head (OpenNode.head_flush hflush), ho]
  cases hnode : flushed.node with
  | text t => simp [hnode, Node.append] at happend
  | element | term | terms => simp [hnode, Node.kind] at hkind

/-- A text node takes no elements. -/
theorem elements_eq_nil_of_fill_text {row : List Item} {o o' : OpenNode}
    (ho : o.node.kind = .text) (h : fill r row o = .ok o') : elements row = [] := by
  induction row generalizing o with
  | nil => rfl
  | cons i row ih =>
    obtain ⟨next, hnext, h⟩ := Result.bind_eq_ok.1 h
    have hkind : next.node.kind = .text := (Node.kind_eq_of_head (head_addTo r hnext)).trans ho
    by_cases hi : i.isElement = true
    · obtain ⟨n, -, happend⟩ := (addTo_eq_ok r hi).1 hnext
      exact absurd happend (append_text_ne_ok ho n)
    · rw [elements, List.filter_cons_of_neg hi]
      exact ih hkind h

end Markup.Item

/-! ## Terms and term tables -/

/-- Whether a node takes children and no text beside them: a term that has no text, or a term
table. -/
def Node.IsStrict : Node → Prop
  | .term t => t.text? = none
  | .terms _ => True
  | _ => False

/-- Whether a text node is the singular or the plural form of a term. -/
def TextNode.IsForm (t : TextNode) : Prop :=
  t.type? = some (.builtin .single) ∨ t.type? = some (.builtin .multiple)

theorem TextNode.IsForm.isRaw_eq_false {t : TextNode} (h : t.IsForm) : t.isRaw = false := by
  rcases h with h | h <;> simp [TextNode.isRaw, h]

/-- Puts a text node that is a form to the place of its type. -/
def Term.withForm (t : Term) (form : TextNode) : Term :=
  if form.type? = some (.builtin .single) then t.putSingle (.ofNode form)
  else t.putMultiple (.ofNode form)

namespace Term

variable {t u : Term} {form : TextNode}

theorem text?_withForm (t : Term) (form : TextNode) : (t.withForm form).text? = none := by
  unfold withForm
  split_ifs <;> rfl

/-- A term without text takes forms, and of all text nodes that are not raw only these. -/
theorem attach_eq_ok (ht : t.text? = none) (hform : form.isRaw = false) :
    t.attach form = .ok u ↔ form.IsForm ∧ u = t.withForm form := by
  have hblank : isBlank (t.text?.getD "") = true := by
    rw [ht]
    rfl
  rw [attach_eq]
  obtain ⟨_ | b | ⟨serial, d⟩, attributes, s⟩ := form
  · exact absurd hform Bool.noConfusion
  · cases b <;>
      simp [TextNode.place?, TextNode.IsForm, hasRoom, hblank, put, withForm, FormNode.ofNode,
        eq_comm]
  · simp [TextNode.place?, TextNode.IsForm]

/-- Beside forms text is refused. -/
theorem pushText_ne_ok (t : Term) (ht : t.hasForms = true) {s : String} (hs : isBlank s = false)
    (u : Term) : t.pushText s ≠ .ok u := by
  simp [pushText_eq, hasRoom, ht, hs]

/-- Text that was pending before a form is refused. -/
theorem attach_pushText {s : String} (hs : isBlank s = false)
    (hform : form.isRaw = false) {v : Term} (hpush : t.pushText s = .ok u) :
    u.attach form ≠ .ok v := by
  have hforms : t.hasForms = false := by
    rw [← Bool.not_eq_true]
    exact fun hforms => t.pushText_ne_ok hforms hs u hpush
  have htext : isBlank (u.text?.getD "") = false := by
    rw [pushText_eq, hasRoom, put, hforms] at hpush
    obtain rfl := Except.ok.inj hpush
    simp [setText, text?, isBlank_append, hs]
  rw [attach_eq]
  cases hplace : form.place? with
  | none => simp
  | some p =>
    simp [hasRoom_eq_false (TextNode.ne_flat_of_place? hform hplace) htext]

end Term

section

variable {n child m : Node}

/-- Before a child of a strict node all text has to be blank. -/
theorem append_of_isStrict (hn : n.IsStrict) (hchild : child.isRaw = false) {p : String}
    {o : OpenNode} : OpenNode.append ⟨n, p⟩ child = .ok o ↔
      isBlank p = true ∧ ∃ n', n.append child = .ok n' ∧ o = ⟨n', ""⟩ := by
  cases hp : isBlank p with
  | true =>
    rw [OpenNode.append, OpenNode.flush_of_blank (o := ⟨n, p⟩) hp, Result.ok_bind,
      Result.bind_eq_ok]
    simp [eq_comm]
  | false =>
    simp only [Bool.false_eq_true, false_and, iff_false]
    intro h
    obtain ⟨flushed, hflush, happend, -⟩ := OpenNode.append_eq_ok h
    rw [OpenNode.flush, if_neg (by simp [hp])] at hflush
    obtain ⟨pushed, hpush, rfl⟩ := Result.map_eq_ok.1 hflush
    cases n with
    | element | text => exact hn
    | terms table => simp [Node.pushText, hp] at hpush
    | term t =>
      obtain ⟨u, hu, rfl⟩ := Result.map_eq_ok.1 hpush
      cases child with
      | element | term | terms => simp [Node.append] at happend
      | text form =>
        obtain ⟨v, hv, -⟩ := Result.map_eq_ok.1 happend
        exact Term.attach_pushText hp hchild hu hv

/-- What has a child that is not raw text drops blank text. -/
theorem Node.holdsText_append {node : Node} (h : node.append child = .ok n)
    (hchild : child.isRaw = false) : n.holdsText = false := by
  cases node with
  | element type? name attributes children => obtain rfl := Except.ok.inj h; rfl
  | text t => simp [append] at h
  | terms table =>
    cases child with
    | term t => obtain rfl := Except.ok.inj h; rfl
    | element | text | terms => simp [append] at h
  | term t =>
    cases child with
    | element | term | terms => simp [append] at h
    | text form =>
      obtain ⟨p, s, hbrings, -, rfl⟩ := add_term_eq_ok (a := .child (.text form)).1 h
      obtain ⟨q, hplace, hq⟩ := Option.map_eq_some_iff.1 hbrings
      obtain ⟨rfl, rfl⟩ := Prod.mk.inj hq
      rw [holdsText, Term.hasForms_put (TextNode.ne_flat_of_place? hchild hplace)]
      rfl

/-- A strict node stays strict when it takes a child. -/
theorem Node.IsStrict.append (hn : n.IsStrict) (hchild : child.isRaw = false)
    (h : n.append child = .ok m) : m.IsStrict := by
  cases n with
  | element | text => exact hn.elim
  | terms table =>
    cases child with
    | term t => obtain rfl := Except.ok.inj h; trivial
    | element | text | terms => simp [Node.append] at h
  | term t =>
    cases child with
    | element | term | terms => simp [Node.append] at h
    | text form =>
      obtain ⟨u, hu, rfl⟩ := Result.map_eq_ok.1 h
      obtain ⟨-, rfl⟩ := (Term.attach_eq_ok hn hchild).1 hu
      exact t.text?_withForm form

/-- Behind the children of a strict node all text has to be blank. -/
theorem finish_of_isStrict (hn : n.IsStrict) (hholds : n.holdsText = false) {p : String} :
    OpenNode.finish ⟨n, p⟩ = .ok m ↔ isBlank p = true ∧ m = n := by
  rw [OpenNode.finish, if_neg (by simp [hholds])]
  cases hp : isBlank p with
  | true => simp [OpenNode.flush, hp, eq_comm]
  | false =>
    have hpush (u : Node) : n.pushText p ≠ .ok u := by
      cases n with
      | element | text => exact hn.elim
      | terms table => simp [Node.pushText, hp]
      | term t =>
        intro h
        obtain ⟨v, hv, -⟩ := Result.map_eq_ok.1 h
        exact t.pushText_ne_ok (by simpa [Node.holdsText] using hholds) hp v hv
    simp only [Bool.false_eq_true, false_and, iff_false]
    intro h
    rw [OpenNode.flush, if_neg (by simp [hp]), Result.map_eq_ok] at h
    obtain ⟨flushed, hflush, -⟩ := h
    obtain ⟨u, hu, -⟩ := Result.map_eq_ok.1 hflush
    exact hpush u hu

variable {r : Registry}

/-- An element adds its node to a strict node, which stays strict and then holds no text. -/
theorem addTo_eq_ok_of_isStrict (hn : n.IsStrict) {i : Item} (hi : i.isElement = true) {p : String}
    {o : OpenNode} : i.addTo r ⟨n, p⟩ = .ok o ↔ isBlank p = true ∧ ∃ child n',
      i.build r = .ok child ∧ n.append child = .ok n' ∧ n'.IsStrict ∧ n'.holdsText = false ∧
        o = ⟨n', ""⟩ := by
  rw [Item.addTo_eq_ok r hi]
  constructor
  · rintro ⟨child, hchild, happend⟩
    have hraw : child.isRaw = false := Item.isRaw_build r hchild
    obtain ⟨hp, n', hn', rfl⟩ := (append_of_isStrict hn hraw).1 happend
    exact ⟨hp, child, n', hchild, hn', hn.append hraw hn', Node.holdsText_append hn' hraw, rfl⟩
  · rintro ⟨hp, child, n', hchild, hn', -, -, rfl⟩
    have hraw : child.isRaw = false := Item.isRaw_build r hchild
    exact ⟨child, hchild, (append_of_isStrict hn hraw).2 ⟨hp, n', hn', rfl⟩⟩

/-- What fills a strict node to its end: no text, and elements whose nodes it takes one after the
other. -/
theorem fill_eq_ok_of_isStrict {row : List Item} {p : String} (hn : n.IsStrict)
    (hsome : Item.elements row ≠ [] ∨ n.holdsText = false) :
    (Item.fill r row ⟨n, p⟩ >>= OpenNode.finish) = .ok m ↔
      isBlank (p ++ Item.characterData row) = true ∧ ∃ ns : List Node,
        (Item.elements row).map (Item.build r) = ns.map .ok ∧ ns.foldlM Node.append n = .ok m := by
  induction row generalizing n p with
  | nil =>
    have hholds : n.holdsText = false := hsome.resolve_left (by simp [Item.elements])
    rw [Item.fill, Result.ok_bind, finish_of_isStrict hn hholds, Item.characterData,
      String.append_empty]
    refine and_congr_right fun _ => ⟨?_, ?_⟩
    · rintro rfl
      exact ⟨[], rfl, rfl⟩
    · rintro ⟨ns, hns, hfold⟩
      obtain rfl := List.map_eq_nil_iff.1 hns.symm
      exact (Except.ok.inj hfold).symm
  | cons i row ih =>
    rw [Item.fill, bind_assoc, Result.bind_eq_ok]
    by_cases hi : i.isElement = true
    · rw [Item.characterData_cons_of_isElement hi, Item.elements_cons_of_isElement hi,
        isBlank_append, Bool.and_eq_true]
      constructor
      · rintro ⟨next, hnext, hrest⟩
        obtain ⟨hp, child, n', hchild, hn', hstrict, hholds, rfl⟩ :=
          (addTo_eq_ok_of_isStrict hn hi).1 hnext
        obtain ⟨hblank, ns, hns, hfold⟩ := (ih hstrict (.inr hholds)).1 hrest
        refine ⟨⟨hp, by simpa using hblank⟩, child :: ns, ?_, ?_⟩
        · rw [List.map_cons, List.map_cons, hchild, hns]
        · rw [List.foldlM_cons, hn']
          exact hfold
      · rintro ⟨⟨hp, hblank⟩, ns, hns, hfold⟩
        obtain ⟨child, ns, rfl, hchild, hns⟩ := List.map_eq_cons_iff.1 hns.symm
        obtain ⟨n', hn', hfold⟩ := Result.bind_eq_ok.1 hfold
        have hraw : child.isRaw = false := Item.isRaw_build r hchild.symm
        have hstrict : n'.IsStrict := hn.append hraw hn'
        have hholds : n'.holdsText = false := Node.holdsText_append hn' hraw
        refine ⟨⟨n', ""⟩, ?_, ?_⟩
        · exact (addTo_eq_ok_of_isStrict hn hi).2
            ⟨hp, child, n', hchild.symm, hn', hstrict, hholds, rfl⟩
        · exact (ih hstrict (.inr hholds)).2 ⟨by simpa using hblank, ns, hns.symm, hfold⟩
    · obtain ⟨s, haddTo, hdata, helements⟩ := Item.addTo_of_not_isElement r row hi
      rw [hdata, helements, ← String.append_assoc]
      rw [helements] at hsome
      constructor
      · rintro ⟨next, hnext, hrest⟩
        obtain rfl := Except.ok.inj ((haddTo _).symm.trans hnext)
        exact (ih hn hsome).1 hrest
      · intro h
        exact ⟨_, haddTo _, (ih hn hsome).2 h⟩

end

/-- A term takes forms one after the other; a later form replaces an earlier one of its kind. -/
theorem foldlM_append_forms {ns : List Node} (hns : ∀ n ∈ ns, n.isRaw = false) {t : Term}
    (ht : t.text? = none) {m : Node} : ns.foldlM Node.append (.term t) = .ok m ↔
      ∃ forms : List TextNode, ns = forms.map .text ∧ (∀ form ∈ forms, form.IsForm) ∧
        m = .term (forms.foldl Term.withForm t) := by
  induction ns generalizing t with
  | nil =>
    constructor
    · intro h
      exact ⟨[], rfl, by simp, (Except.ok.inj h).symm⟩
    · rintro ⟨forms, hforms, -, rfl⟩
      obtain rfl := List.map_eq_nil_iff.1 hforms.symm
      rfl
  | cons n ns ih =>
    rw [List.forall_mem_cons] at hns
    rw [List.foldlM_cons, Result.bind_eq_ok]
    constructor
    · rintro ⟨n', hn', hfold⟩
      cases n with
      | element | term | terms => simp [Node.append] at hn'
      | text form =>
        obtain ⟨u, hu, rfl⟩ := Result.map_eq_ok.1 hn'
        obtain ⟨hform, rfl⟩ := (Term.attach_eq_ok ht hns.1).1 hu
        obtain ⟨forms, rfl, hforms, rfl⟩ := (ih hns.2 (t.text?_withForm form)).1 hfold
        exact ⟨form :: forms, rfl, List.forall_mem_cons.2 ⟨hform, hforms⟩, rfl⟩
    · rintro ⟨forms, heq, hforms, rfl⟩
      obtain ⟨form, forms, rfl, rfl, rfl⟩ := List.map_eq_cons_iff.1 heq.symm
      rw [List.forall_mem_cons] at hforms
      refine ⟨.term (t.withForm form), ?_, ?_⟩
      · rw [Node.append, (Term.attach_eq_ok ht hns.1).2 ⟨hforms.1, rfl⟩]
        rfl
      · exact (ih hns.2 (t.text?_withForm form)).2 ⟨forms, rfl, hforms.2, rfl⟩

/-- The term that a node is. -/
def Node.asTerm? : Node → Option Term
  | .term t => some t
  | _ => none

/-- A term table takes terms one after the other. -/
theorem foldlM_append_terms {ns : List Node} {table : TermTable} {m : Node} :
    ns.foldlM Node.append (.terms table) = .ok m ↔
      ∃ ts : List Term, ns = ts.map .term ∧
        m = .terms { table with terms := table.terms ++ ts } := by
  induction ns generalizing table with
  | nil =>
    constructor
    · intro h
      exact ⟨[], rfl, by rw [List.append_nil]; exact (Except.ok.inj h).symm⟩
    · rintro ⟨ts, hts, rfl⟩
      obtain rfl := List.map_eq_nil_iff.1 hts.symm
      rw [List.append_nil]
      rfl
  | cons n ns ih =>
    rw [List.foldlM_cons, Result.bind_eq_ok]
    constructor
    · rintro ⟨n', hn', hfold⟩
      cases n with
      | element | text | terms => simp [Node.append] at hn'
      | term t =>
        obtain rfl := Except.ok.inj hn'
        obtain ⟨ts, rfl, rfl⟩ := ih.1 hfold
        exact ⟨t :: ts, rfl, by simp [TermTable.push]⟩
    · rintro ⟨ts, heq, rfl⟩
      obtain ⟨t, ts, rfl, rfl, rfl⟩ := List.map_eq_cons_iff.1 heq.symm
      exact ⟨.terms (table.push t), rfl, ih.2 ⟨ts, rfl, by simp [TermTable.push]⟩⟩

section

variable {r : Registry} {row : List Item} {p : String} {n : Node}

/-- Where the elements are built into some nodes, each is built into one of them, and each of them
is built from one. -/
theorem exists_of_map_build {α : Type} {f : α → Node} {as : List α}
    (h : (Item.elements row).map (Item.build r) = as.map fun a => .ok (f a)) :
    (∀ i ∈ Item.elements row, ∃ a, i.build r = .ok (f a)) ∧
      ∀ a ∈ as, ∃ i ∈ row, i.build r = .ok (f a) := by
  constructor
  · intro i hi
    have hmem : i.build r ∈ as.map fun a => .ok (f a) := by
      rw [← h]
      exact List.mem_map_of_mem hi
    obtain ⟨a, -, ha⟩ := List.mem_map.1 hmem
    exact ⟨a, ha.symm⟩
  · intro a ha
    have hmem : .ok (f a) ∈ (Item.elements row).map (Item.build r) := by
      rw [h]
      exact List.mem_map_of_mem ha
    obtain ⟨i, hi, hbuild⟩ := List.mem_map.1 hmem
    exact ⟨i, (List.mem_filter.1 hi).1, hbuild⟩

theorem isRaw_of_map_build {ns : List Node}
    (h : (Item.elements row).map (Item.build r) = ns.map .ok) : ∀ n ∈ ns, n.isRaw = false := by
  intro n hn
  obtain ⟨i, -, hbuild⟩ := (exists_of_map_build (f := id) h).2 n hn
  exact Item.isRaw_build r hbuild

/-- A term with elements in it has no text in it, all elements in it are forms, and these are set
one after the other. -/
theorem fill_term_eq_ok {t : Term} (ht : t.text? = none)
    (hsome : Item.elements row ≠ [] ∨ t.hasForms = true) :
    (Item.fill r row ⟨.term t, p⟩ >>= OpenNode.finish) = .ok n ↔
      isBlank (p ++ Item.characterData row) = true ∧ ∃ forms : List TextNode,
        (Item.elements row).map (Item.build r) = forms.map (fun form => .ok (.text form)) ∧
          (∀ form ∈ forms, form.IsForm) ∧ n = .term (forms.foldl Term.withForm t) := by
  have hholds : Item.elements row ≠ [] ∨ (Node.term t).holdsText = false := by
    simpa [Node.holdsText] using hsome
  rw [fill_eq_ok_of_isStrict (n := .term t) ht hholds]
  refine and_congr_right fun _ => ⟨?_, ?_⟩
  · rintro ⟨ns, hns, hfold⟩
    obtain ⟨forms, rfl, hforms, rfl⟩ := (foldlM_append_forms (isRaw_of_map_build hns) ht).1 hfold
    rw [List.map_map] at hns
    exact ⟨forms, hns, hforms, rfl⟩
  · rintro ⟨forms, hbuild, hforms, rfl⟩
    have hns : (Item.elements row).map (Item.build r) = (forms.map Node.text).map .ok := by
      rw [List.map_map]
      exact hbuild
    refine ⟨_, hns, ?_⟩
    exact (foldlM_append_forms (isRaw_of_map_build hns) ht).2 ⟨forms, rfl, hforms, rfl⟩

/-- A term table has no text in it, all elements in it are terms, and these are its terms. -/
theorem fill_terms_eq_ok {table : TermTable} :
    (Item.fill r row ⟨.terms table, p⟩ >>= OpenNode.finish) = .ok n ↔
      isBlank (p ++ Item.characterData row) = true ∧ ∃ ts : List Term,
        (Item.elements row).map (Item.build r) = ts.map (fun t => .ok (.term t)) ∧
          n = .terms { table with terms := table.terms ++ ts } := by
  rw [fill_eq_ok_of_isStrict (n := .terms table) trivial (.inr rfl)]
  refine and_congr_right fun _ => ⟨?_, ?_⟩
  · rintro ⟨ns, hns, hfold⟩
    obtain ⟨ts, rfl, rfl⟩ := foldlM_append_terms.1 hfold
    rw [List.map_map] at hns
    exact ⟨ts, hns, rfl⟩
  · rintro ⟨ts, hbuild, rfl⟩
    refine ⟨ts.map .term, ?_, foldlM_append_terms.2 ⟨ts, rfl, rfl⟩⟩
    rw [List.map_map]
    exact hbuild

end

end CitationLocale
