import CitationLocale.Document.Basic
import CitationLocale.Proofs.Source
import CitationLocale.Proofs.Tree

/-!
# Building by recursion

The builder reads tokens one by one and keeps the open elements on a stack. The same trees come
from a recursion over the items of the document (`Item.build`): an item is added to the element
around it (`Item.addTo`), and the content of an element fills it (`Item.fill`). The loop and the
recursion agree, errors included (`foldlM_tokens_inside`, `foldlM_tokens_outside`), so that the
documents that are read are those whose element can be built (`parseWith_eq_ok`).
-/

namespace CitationLocale

open Markup Text

/-! ## Pending text -/

namespace OpenNode

/-- Adds to the pending text. -/
def addText (o : OpenNode) (s : String) : OpenNode :=
  { o with pending := o.pending ++ s }

/-- Pending text that is blank is dropped. -/
theorem flush_of_blank {o : OpenNode} (h : isBlank o.pending = true) :
    o.flush = .ok ⟨o.node, ""⟩ := by
  rw [flush, if_pos h]

theorem pending_of_flush {o o' : OpenNode} (h : o.flush = .ok o') : o'.pending = "" := by
  unfold flush at h
  split_ifs at h
  · obtain rfl := Except.ok.inj h
    rfl
  · obtain ⟨n, -, rfl⟩ := Result.map_eq_ok.1 h
    rfl

theorem flush_flush (o : OpenNode) : (o.flush >>= flush) = o.flush := by
  cases h : o.flush with
  | error e => rfl
  | ok o' =>
    have hpending := pending_of_flush h
    rw [Result.ok_bind, flush_of_blank (by rw [hpending]; rfl), ← hpending]

/-- Adding a child is flushing the text before it and then adding it. -/
theorem flush_append (o : OpenNode) (child : Node) :
    (do let o ← o.flush; o.append child) = o.append child := by
  unfold append
  rw [← bind_assoc, flush_flush]

/-- The node of an element when the end tag with a name is reached. -/
def closeAs (o : OpenNode) (name : String) : Except Error Node :=
  if o.node.name = name then o.finish else .error (.mismatchedEndTag o.node.name name)

theorem head_flush {o o' : OpenNode} (h : o.flush = .ok o') : o'.node.head = o.node.head := by
  unfold flush at h
  split_ifs at h
  · obtain rfl := Except.ok.inj h
    rfl
  · obtain ⟨n, hn, rfl⟩ := Result.map_eq_ok.1 h
    exact Node.head_pushText hn

/-- Adding a child in detail: the text before it is flushed, and nothing is pending after it. -/
theorem append_eq_ok {o o' : OpenNode} {child : Node} (h : o.append child = .ok o') :
    ∃ flushed, o.flush = .ok flushed ∧ flushed.node.append child = .ok o'.node ∧
      o'.pending = "" := by
  obtain ⟨flushed, hflush, h⟩ := Result.bind_eq_ok.1 h
  obtain ⟨n, hn, h⟩ := Result.bind_eq_ok.1 h
  obtain rfl := Except.ok.inj h
  have hpending : flushed.pending = "" := pending_of_flush hflush
  exact ⟨flushed, hflush, hn, hpending⟩

theorem head_append {o o' : OpenNode} {child : Node} (h : o.append child = .ok o') :
    o'.node.head = o.node.head := by
  obtain ⟨flushed, hflush, happend, -⟩ := append_eq_ok h
  exact (Node.head_append happend).trans (head_flush hflush)

theorem head_finish {o : OpenNode} {n : Node} (h : o.finish = .ok n) : n.head = o.node.head := by
  unfold finish at h
  split_ifs at h
  · exact Node.head_pushText h
  · obtain ⟨o', ho', rfl⟩ := Result.map_eq_ok.1 h
    exact head_flush ho'

theorem closeAs_eq_ok {o : OpenNode} {name : String} {n : Node} :
    o.closeAs name = .ok n ↔ o.node.name = name ∧ o.finish = .ok n := by
  unfold closeAs
  split_ifs with h <;> simp [h]

end OpenNode

/-! ## One token -/

namespace Builder

variable (o : OpenNode) (outer : List OpenNode) (root? : Option Node) (node : Node)

theorem push_inside : push ⟨o :: outer, root?⟩ node =
    o.flush.map fun o => ⟨⟨node, ""⟩ :: o :: outer, root?⟩ := rfl

theorem push_outside : push ⟨[], root?⟩ node = .ok ⟨[⟨node, ""⟩], root?⟩ := rfl

theorem attach_inside : attach ⟨o :: outer, root?⟩ node =
    (o.append node).map fun o => ⟨o :: outer, root?⟩ := rfl

theorem close_inside (name : String) : close ⟨o :: outer, root?⟩ name =
    o.closeAs name >>= attach ⟨outer, root?⟩ := by
  simp only [close, OpenNode.closeAs]
  split_ifs <;> rfl

end Builder

/-! ## The recursion -/

namespace Markup.Item

mutual

/-- Adds an item to the element around it. -/
def addTo (r : Registry) : Item → OpenNode → Except Error OpenNode
  | .element name attributes content, o => do
    let o ← o.flush
    let inner ← fill r content ⟨r.create name (.ofPairs attributes), ""⟩
    o.append (← inner.closeAs name)
  | .empty name attributes, o => o.append (r.create name (.ofPairs attributes))
  | .text content, o => .ok (o.addText content)
  | .aside, o => .ok o

/-- Fills an element with its content. -/
def fill (r : Registry) : List Item → OpenNode → Except Error OpenNode
  | [], o => .ok o
  | i :: row, o => do fill r row (← addTo r i o)

end

/-- The node of an element; an item that is no element has none of its own. -/
def build (r : Registry) : Item → Except Error Node
  | .element name attributes content => do
    (← fill r content ⟨r.create name (.ofPairs attributes), ""⟩).closeAs name
  | .empty name attributes => .ok (r.create name (.ofPairs attributes))
  | _ => .error .emptyDocument

section

variable (r : Registry)

/-- An element is built and then added as a child, after the text before it. -/
theorem addTo_of_isElement {i : Item} (h : i.isElement = true) (o : OpenNode) :
    i.addTo r o = o.flush >>= fun o => i.build r >>= o.append := by
  cases i with
  | element name attributes content => simp [addTo, build]
  | empty name attributes =>
    simp only [addTo, build, Result.ok_bind]
    exact (o.flush_append _).symm
  | text | aside => simp [isElement] at h

theorem addTo_eq_ok {i : Item} (h : i.isElement = true) {o o' : OpenNode} :
    i.addTo r o = .ok o' ↔ ∃ n, i.build r = .ok n ∧ o.append n = .ok o' := by
  rw [addTo_of_isElement r h, Result.bind_eq_ok]
  constructor
  · rintro ⟨flushed, hflush, hadd⟩
    obtain ⟨n, hn, happend⟩ := Result.bind_eq_ok.1 hadd
    refine ⟨n, hn, ?_⟩
    rw [← OpenNode.flush_append, hflush]
    exact happend
  · rintro ⟨n, hn, happend⟩
    rw [← OpenNode.flush_append] at happend
    obtain ⟨flushed, hflush, happend⟩ := Result.bind_eq_ok.1 happend
    exact ⟨flushed, hflush, by rw [hn]; exact happend⟩

/-! ### What building leaves as it is -/

theorem head_addTo {i : Item} {o o' : OpenNode} (h : i.addTo r o = .ok o') :
    o'.node.head = o.node.head := by
  cases i with
  | element name attributes content =>
    obtain ⟨flushed, hflush, h⟩ := Result.bind_eq_ok.1 h
    obtain ⟨inner, -, h⟩ := Result.bind_eq_ok.1 h
    obtain ⟨child, -, h⟩ := Result.bind_eq_ok.1 h
    exact (OpenNode.head_append h).trans (OpenNode.head_flush hflush)
  | empty name attributes => exact OpenNode.head_append h
  | text | aside => obtain rfl := Except.ok.inj h; rfl

theorem head_fill {row : List Item} {o o' : OpenNode} (h : fill r row o = .ok o') :
    o'.node.head = o.node.head := by
  induction row generalizing o with
  | nil => obtain rfl := Except.ok.inj h; rfl
  | cons i row ih =>
    obtain ⟨next, hnext, h⟩ := Result.bind_eq_ok.1 h
    exact (ih h).trans (head_addTo r hnext)

/-- The name and the attributes with which an element starts. -/
def start : Item → String × List (String × String)
  | element name attributes _ => (name, attributes)
  | empty name attributes => (name, attributes)
  | _ => ("", [])

/-- The name of an element. -/
def name (i : Item) : String := i.start.1

/-- The node that is created for an element. -/
def fresh (r : Registry) (i : Item) : Node :=
  r.create i.name (.ofPairs i.start.2)

/-- A built node is what was created, with content. -/
theorem head_build {i : Item} {n : Node} (h : i.build r = .ok n) :
    n.head = (i.fresh r).head := by
  cases i with
  | element name attributes content =>
    obtain ⟨inner, hfill, h⟩ := Result.bind_eq_ok.1 h
    exact (OpenNode.head_finish (OpenNode.closeAs_eq_ok.1 h).2).trans (head_fill r hfill)
  | empty name attributes => obtain rfl := Except.ok.inj h; rfl
  | text | aside => simp [build] at h

/-- Building never yields raw text. -/
theorem isRaw_build {i : Item} {n : Node} (h : i.build r = .ok n) : n.isRaw = false := by
  rw [Node.isRaw_eq_of_head (head_build r h)]
  exact r.isRaw_create _ _

/-! ## The loop -/

/-- Reading the tokens of an item inside an element adds the item to it. -/
theorem foldlM_tokens_inside (i : Item) (o : OpenNode) (outer : List OpenNode)
    (root? : Option Node) :
    i.tokens.foldlM (Builder.step r) ⟨o :: outer, root?⟩ =
      (i.addTo r o).map fun o => ⟨o :: outer, root?⟩ := by
  induction i using Item.inductionOn generalizing o outer with
  | element name attributes content ih =>
    have hcontent (o : OpenNode) (outer : List OpenNode) :
        (rowTokens content).foldlM (Builder.step r) ⟨o :: outer, root?⟩ =
          (fill r content o).map fun o => ⟨o :: outer, root?⟩ := by
      induction content generalizing o with
      | nil => rfl
      | cons c content ihc =>
        rw [rowTokens, List.foldlM_append, ih c (by simp), fill]
        cases c.addTo r o with
        | error e => rfl
        | ok o' => exact ihc (fun d hd => ih d (List.mem_cons_of_mem c hd)) o'
    rw [tokens, List.foldlM_cons, Builder.step, Builder.push_inside, addTo]
    cases o.flush with
    | error e => rfl
    | ok o' =>
      simp only [Result.ok_map, Result.ok_bind, List.foldlM_append, hcontent]
      cases fill r content ⟨r.create name (.ofPairs attributes), ""⟩ with
      | error e => rfl
      | ok inner =>
        simp only [Result.ok_map, Result.ok_bind, List.foldlM_cons, List.foldlM_nil, Builder.step,
          Builder.close_inside]
        cases inner.closeAs name with
        | error e => rfl
        | ok child =>
          simp only [Result.ok_bind, Builder.attach_inside]
          cases o'.append child <;> rfl
  | empty name attributes =>
    rw [tokens, List.foldlM_cons, Builder.step, Builder.attach_inside, addTo]
    cases o.append (r.create name (.ofPairs attributes)) <;> rfl
  | text content => rfl
  | aside => rfl

/-- Reading the tokens of an element outside all elements builds it and makes it a root. -/
theorem foldlM_tokens_outside {i : Item} (h : i.isElement = true) (root? : Option Node) :
    i.tokens.foldlM (Builder.step r) ⟨[], root?⟩ =
      i.build r >>= Builder.attach ⟨[], root?⟩ := by
  cases i with
  | element name attributes content =>
    have hcontent (o : OpenNode) :
        (rowTokens content).foldlM (Builder.step r) ⟨[o], root?⟩ =
          (fill r content o).map fun o => ⟨[o], root?⟩ := by
      induction content generalizing o with
      | nil => rfl
      | cons c content ihc =>
        rw [rowTokens, List.foldlM_append, foldlM_tokens_inside, fill]
        cases c.addTo r o with
        | error e => rfl
        | ok o' => exact ihc rfl o'
    rw [tokens, List.foldlM_cons, Builder.step, Builder.push_outside, build]
    simp only [Result.ok_bind, List.foldlM_append, hcontent]
    cases fill r content ⟨r.create name (.ofPairs attributes), ""⟩ with
    | error e => rfl
    | ok inner =>
      simp only [Result.ok_map, Result.ok_bind, List.foldlM_cons, List.foldlM_nil, Builder.step,
        Builder.close_inside, Result.pure_eq_ok]
      exact bind_pure _
  | empty name attributes =>
    rw [tokens, List.foldlM_cons, Builder.step, build]
    exact bind_pure _
  | text | aside => simp [isElement] at h

/-- Reading a row of items outside all elements builds its elements and makes each a root. -/
theorem foldlM_rowTokens (row : List Item) (root? : Option Node) :
    (rowTokens row).foldlM (Builder.step r) ⟨[], root?⟩ =
      (elements row).foldlM (fun b i => i.build r >>= b.attach) ⟨[], root?⟩ := by
  induction row generalizing root? with
  | nil => rfl
  | cons i row ih =>
    rw [rowTokens, List.foldlM_append]
    by_cases h : i.isElement = true
    · rw [foldlM_tokens_outside r h, elements, List.filter_cons_of_pos h, List.foldlM_cons]
      cases i.build r with
      | error e => rfl
      | ok n =>
        cases root? with
        | none => exact ih (some n)
        | some m => rfl
    · have hskip : i.tokens.foldlM (Builder.step r) ⟨[], root?⟩ = .ok ⟨[], root?⟩ := by
        cases i with
        | text | aside => rfl
        | element | empty => exact absurd rfl h
      rw [hskip, elements, List.filter_cons_of_neg h]
      exact ih root?

end

end Markup.Item

/-! ## Whole documents -/

/-- Marking character data changes nothing for the builder. -/
theorem Builder.step_plain (r : Registry) (b : Builder) (t : Token) :
    b.step r t.plain = b.step r t := by
  cases t <;> rfl

/-- The tokens of a row with one element make what is built from this element. -/
theorem Markup.Item.foldlM_finish {r : Registry} {row : List Item} {root : Item}
    (hroot : elements row = [root]) :
    ((rowTokens row).foldlM (Builder.step r) .empty >>= Builder.finish) = root.build r := by
  rw [Builder.empty, foldlM_rowTokens, hroot, List.foldlM_cons]
  cases root.build r <;> rfl

/-- A document with tokens like those of a row with one element is read into what is built from
that element. -/
theorem parseWith_of_row {r : Registry} {s : String} {row : List Item} {root : Item}
    (hfault : (scan s).fault? = none)
    (htokens : ∀ b, (scan s).tokens.foldlM (Builder.step r) b =
      (Item.rowTokens row).foldlM (Builder.step r) b)
    (hroot : Item.elements row = [root]) : Node.parseWith r s = root.build r := by
  rw [← Item.foldlM_finish hroot, Node.parseWith, htokens, hfault]

/-- A document in which all tags are closed, and which has one element outside all others, is read
into what is built from this element. -/
theorem parseWith_of_forest {r : Registry} {s : String} {row : List Item} {root : Item}
    (hfault : (scan s).fault? = none) (hrow : forest? (scan s).tokens = some row)
    (hroot : Item.elements row = [root]) : Node.parseWith r s = root.build r := by
  refine parseWith_of_row hfault (fun b => ?_) hroot
  rw [← plain_of_forest? hrow, List.foldlM_map]
  simp only [Builder.step_plain]

/-- Attaching a node neither opens nor closes an element. -/
theorem Builder.length_attach {b b' : Builder} {n : Node} (h : b.attach n = .ok b') :
    b'.opened.length = b.opened.length := by
  obtain ⟨opened, root?⟩ := b
  cases opened with
  | nil =>
    simp only [attach] at h
    split_ifs at h
    obtain rfl := Except.ok.inj h
    rfl
  | cons o outer =>
    rw [attach_inside] at h
    obtain ⟨o', -, rfl⟩ := Result.map_eq_ok.1 h
    rfl

/-- The builder keeps as many elements open as the document has open. -/
theorem Builder.length_step {r : Registry} {b b' : Builder} {t : Token} {names names' : List String}
    (hstep : b.step r t = .ok b') (hopen : openStep names t = some names')
    (hlength : names.length = b.opened.length) : names'.length = b'.opened.length := by
  obtain ⟨opened, root?⟩ := b
  cases t with
  | start name attributes =>
    obtain rfl := Option.some.inj hopen
    cases opened with
    | nil =>
      obtain rfl := Except.ok.inj hstep
      simpa using hlength
    | cons o outer =>
      rw [step, push_inside] at hstep
      obtain ⟨o', -, rfl⟩ := Result.map_eq_ok.1 hstep
      simpa using hlength
  | empty name attributes =>
    obtain rfl := Option.some.inj hopen
    exact hlength.trans (length_attach hstep).symm
  | close name =>
    cases opened with
    | nil => simp [step, close] at hstep
    | cons o outer =>
      rw [step, close_inside] at hstep
      obtain ⟨n, -, hstep⟩ := Result.bind_eq_ok.1 hstep
      cases names with
      | nil => simp at hlength
      | cons expected names =>
        simp only [openStep] at hopen
        split_ifs at hopen
        obtain rfl := Option.some.inj hopen
        rw [length_attach hstep]
        simpa using hlength
  | text s | cdata s =>
    obtain rfl := Option.some.inj hopen
    obtain rfl := Except.ok.inj hstep
    cases opened <;> exact hlength
  | aside =>
    obtain rfl := Option.some.inj hopen
    obtain rfl := Except.ok.inj hstep
    exact hlength

theorem Builder.length_foldlM {r : Registry} {b b' : Builder} {ts : List Token}
    {names names' : List String} (hrun : ts.foldlM (Builder.step r) b = .ok b')
    (hopen : openAfter names ts = some names') (hlength : names.length = b.opened.length) :
    names'.length = b'.opened.length := by
  induction ts generalizing b names with
  | nil =>
    obtain rfl := Except.ok.inj hrun
    obtain rfl := Option.some.inj hopen
    exact hlength
  | cons t ts ih =>
    rw [List.foldlM_cons] at hrun
    obtain ⟨next, hstep, hrun⟩ := Result.bind_eq_ok.1 hrun
    rw [openAfter_cons, Option.bind_eq_some_iff] at hopen
    obtain ⟨names'', hopenStep, hopen⟩ := hopen
    exact ih hrun hopen (length_step hstep hopenStep hlength)

/-- Only a single element becomes a root. -/
theorem Builder.eq_singleton_of_attach {r : Registry} {items : List Item} {t : Node}
    (h : items.foldlM (fun (b : Builder) i => i.build r >>= b.attach) ⟨[], none⟩ =
      .ok ⟨[], some t⟩) :
    ∃ root, items = [root] ∧ root.build r = .ok t := by
  cases items with
  | nil => simp at h
  | cons root later =>
    rw [List.foldlM_cons] at h
    obtain ⟨next, hroot, hlater⟩ := Result.bind_eq_ok.1 h
    obtain ⟨n, hn, hattach⟩ := Result.bind_eq_ok.1 hroot
    obtain rfl := Except.ok.inj hattach
    cases later with
    | nil =>
      obtain ⟨-, rfl⟩ : ([] : List OpenNode) = [] ∧ n = t := by simpa using hlater
      exact ⟨root, rfl, hn⟩
    | cons second later =>
      rw [List.foldlM_cons] at hlater
      obtain ⟨next, hsecond, -⟩ := Result.bind_eq_ok.1 hlater
      obtain ⟨m, -, hattach⟩ := Result.bind_eq_ok.1 hsecond
      simp [Builder.attach] at hattach

/-- The documents that are read: they are read to their end, all tags are closed, there is one
element outside all others, and the tree is what is built from this element. -/
theorem parseWith_eq_ok {r : Registry} {s : String} {t : Node} :
    Node.parseWith r s = .ok t ↔ (scan s).fault? = none ∧ ∃ row root,
      forest? (scan s).tokens = some row ∧ Item.elements row = [root] ∧ root.build r = .ok t := by
  constructor
  · intro h
    obtain ⟨b, hrun, h⟩ := Result.bind_eq_ok.1 h
    cases hfault : (scan s).fault? with
    | some fault => simp [hfault] at h
    | none =>
      rw [hfault] at h
      obtain ⟨opened, root?⟩ := b
      obtain ⟨rfl, rfl⟩ : opened = [] ∧ root? = some t := by
        cases opened <;> cases root? <;> simp_all [Builder.finish]
      obtain ⟨names, hnames⟩ := Option.isSome_iff_exists.1 (openAfter_scan s)
      have hlength := Builder.length_foldlM hrun hnames rfl
      obtain rfl := List.eq_nil_of_length_eq_zero hlength
      obtain ⟨row, hrow⟩ := forest?_of_openAfter hnames
      have hitems : (Item.rowTokens row).foldlM (Builder.step r) .empty = .ok ⟨[], some t⟩ := by
        rw [← plain_of_forest? hrow, List.foldlM_map]
        simpa only [Builder.step_plain] using hrun
      rw [Builder.empty, Item.foldlM_rowTokens] at hitems
      obtain ⟨root, hroot, hbuild⟩ := Builder.eq_singleton_of_attach hitems
      exact ⟨rfl, row, root, hrow, hroot, hbuild⟩
  · rintro ⟨hfault, row, root, hrow, hroot, hbuild⟩
    rw [parseWith_of_forest hfault hrow hroot, hbuild]

end CitationLocale
