import CitationLocale.Proofs.Filling

/-!
# Editing in place

The operations on a node as they change what is stored. The flat text and the forms of a term are
fields of their own, written one after the other, and an operation that stops with an error leaves
what it wrote until then. In place the operations follow those that yield a new node: they succeed
together, or fail with one error and have written nothing (`NodeDraft.follows_add`).
-/

namespace CitationLocale

open Text

/-- An operation on what is stored. It may stop with an error. -/
abbrev Editing (σ : Type) := ExceptT Error (StateM σ)

namespace Editing

variable {σ τ : Type}

theorem run_get_bind (f : σ → Editing σ Unit) (s : σ) :
    (get >>= f).run.run s = (f s).run.run s := rfl

theorem run_bind_of_ok {x : Editing σ Unit} (y : Editing σ Unit) {s s' : σ}
    (h : x.run.run s = (.ok (), s')) : (do x; y).run.run s = y.run.run s' := by
  rw [ExceptT.run_bind, StateT.run_bind, h]
  rfl

theorem run_bind_of_error {x : Editing σ Unit} (y : Editing σ Unit) {s s' : σ} {e : Error}
    (h : x.run.run s = (.error e, s')) : (do x; y).run.run s = (.error e, s') := by
  rw [ExceptT.run_bind, StateT.run_bind, h]
  rfl

/-- An operation in place follows one that yields a new value: it succeeds, and then what is stored
represents the new value, or it fails with the same error, and then what is stored is as before. -/
def Follows (represents : σ → τ → Prop) (x : Editing σ Unit) (s : σ) : Except Error τ → Prop
  | .ok t => ∃ s', x.run.run s = (.ok (), s') ∧ represents s' t
  | .error e => x.run.run s = (.error e, s)

/-- Only the first of several steps may fail, so that nothing has been written when it does. -/
theorem Follows.bind {represents : σ → τ → Prop} {x y : Editing σ Unit} {s : σ}
    {result : Except Error τ} {f : τ → τ} (hx : x.Follows represents s result)
    (hy : ∀ s' t, result = .ok t → represents s' t → y.Follows represents s' (.ok (f t))) :
    Editing.Follows represents (do x; y) s (result.map f) := by
  cases result with
  | ok t =>
    obtain ⟨s', hrun, hs'⟩ := hx
    obtain ⟨s'', hrun', hs''⟩ := hy s' t rfl hs'
    exact ⟨s'', (run_bind_of_ok y hrun).trans hrun', hs''⟩
  | error e => exact run_bind_of_error y hx

/-- What is stored represents the new value, or if there is none, the old one. -/
theorem Follows.represents {represents : σ → τ → Prop} {x : Editing σ Unit} {s : σ} {t : τ}
    {result : Except Error τ} (hx : x.Follows represents s result) (hs : represents s t) :
    represents (x.run.run s).2 (result.toOption.getD t) := by
  cases result with
  | ok u =>
    obtain ⟨s', hrun, hs'⟩ := hx
    rw [hrun]
    exact hs'
  | error e =>
    have hrun : x.run.run s = (.error e, s) := hx
    rw [hrun]
    exact hs

end Editing

/-! ## Terms -/

/-- A term as it is stored. Nothing in it keeps flat text and forms apart. -/
structure TermDraft where
  attributes : Attributes
  text? : Option String
  single? : Option TextNode
  multiple? : Option TextNode

/-- What is stored for a term. -/
def Term.draft (t : Term) : TermDraft :=
  ⟨t.attributes, t.text?, t.singleForm?.map (·.node .single),
    t.multipleForm?.map (·.node .multiple)⟩

namespace TermDraft

/-- A new term. -/
def create (supplied : Attributes) : TermDraft :=
  ⟨createAttributes (some (.builtin .term)) supplied, none, none, none⟩

def hasForms (d : TermDraft) : Bool :=
  d.single?.isSome || d.multiple?.isSome

/-- Replaces the content by flat text. -/
def setText (s : String) : Editing TermDraft Unit := do
  modify ({ · with text? := some s })
  modify ({ · with single? := none })
  modify ({ · with multiple? := none })

/-- Sets the singular form in place of flat text or of an earlier singular form. -/
def setSingle (s : String) : Editing TermDraft Unit := do
  modify ({ · with text? := none })
  modify ({ · with single? := some (.typed (.builtin .single) .empty s) })

/-- Sets the plural form in place of flat text or of an earlier plural form. -/
def setMultiple (s : String) : Editing TermDraft Unit := do
  modify ({ · with text? := none })
  modify ({ · with multiple? := some (.typed (.builtin .multiple) .empty s) })

/-- Sets both forms. -/
def setForms (single multiple : String) : Editing TermDraft Unit := do
  setSingle single
  setMultiple multiple

/-- Appends text. Beside a form only blank text is admitted, and dropped. -/
def pushText (s : String) : Editing TermDraft Unit := do
  let d ← get
  match d.text? with
  | some old => set { d with text? := some (old ++ s) }
  | none =>
    if d.hasForms then
      unless isBlank s do throw (.invalidChild "term" "text")
    else set { d with text? := some s }

/-- Drops flat text to make room for a form, if it is blank. -/
def dropBlankText (form : TextNode) : Editing TermDraft Unit := do
  let d ← get
  if isBlank (d.text?.getD "") then set { d with text? := none }
  else throw (.invalidChild "term" ("<" ++ form.name ++ ">"))

/-- Adds a text node: raw text is appended, a form is stored in place of an earlier one. -/
def attach (node : TextNode) : Editing TermDraft Unit :=
  match node.type? with
  | none => pushText node.text
  | some (.builtin .single) => do
    dropBlankText node
    modify ({ · with single? := some node })
  | some (.builtin .multiple) => do
    dropBlankText node
    modify ({ · with multiple? := some node })
  | some _ => throw (.invalidChild "term" ("<" ++ node.name ++ ">"))

/-- Adds a child or text. -/
def add : Addition → Editing TermDraft Unit
  | .child (.text node) => attach node
  | .child other => throw (Node.invalidChild "term" other)
  | .text s => pushText s

/-- What is stored represents a term: it has the same record, the same text and the same forms, each
of its built-in type. -/
structure Represents (d : TermDraft) (t : Term) : Prop where
  attributes : d.attributes = t.attributes
  text : d.text? = t.text?
  single : d.single? = t.singleForm?.map (·.node .single)
  multiple : d.multiple? = t.multipleForm?.map (·.node .multiple)

variable {d d' : TermDraft} {t u : Term} {s : String}

theorem represents_create (supplied : Attributes) :
    (create supplied).Represents (.create supplied) :=
  ⟨rfl, rfl, rfl, rfl⟩

theorem represents_draft (t : Term) : t.draft.Represents t :=
  ⟨rfl, rfl, rfl, rfl⟩

theorem Represents.hasForms_eq (h : d.Represents t) : d.hasForms = t.hasForms := by
  rw [hasForms, h.single, h.multiple, Option.isSome_map, Option.isSome_map, Term.hasForms]

/-! ### Setting content -/

theorem follows_setText (h : d.Represents t) (s : String) :
    (setText s).Follows Represents d (.ok (t.setText s)) :=
  ⟨_, rfl, h.attributes, rfl, rfl, rfl⟩

theorem follows_setSingle (h : d.Represents t) (s : String) :
    (setSingle s).Follows Represents d (.ok (t.setSingle s)) :=
  ⟨_, rfl, h.attributes, rfl, rfl, h.multiple⟩

theorem follows_setMultiple (h : d.Represents t) (s : String) :
    (setMultiple s).Follows Represents d (.ok (t.setMultiple s)) :=
  ⟨_, rfl, h.attributes, rfl, h.single, rfl⟩

theorem follows_setForms (h : d.Represents t) (single multiple : String) :
    (setForms single multiple).Follows Represents d (.ok (t.setForms single multiple)) :=
  ⟨_, rfl, h.attributes, rfl, rfl, rfl⟩

/-! ### Adding to the content -/

theorem run_pushText (d : TermDraft) (s : String) : (pushText s).run.run d =
    if d.hasForms && d.text?.isNone then
      if isBlank s then (.ok (), d) else (.error (.invalidChild "term" "text"), d)
    else (.ok (), { d with text? := some (d.text?.getD "" ++ s) }) := by
  rw [pushText, Editing.run_get_bind]
  cases d.text? with
  | some old => cases d.hasForms <;> rfl
  | none =>
    cases d.hasForms with
    | false => rfl
    | true => cases isBlank s <;> rfl

theorem run_dropBlankText (d : TermDraft) (form : TextNode) : (dropBlankText form).run.run d =
    if isBlank (d.text?.getD "") then (.ok (), { d with text? := none })
    else (.error (.invalidChild "term" ("<" ++ form.name ++ ">")), d) := by
  rw [dropBlankText, Editing.run_get_bind]
  split_ifs <;> rfl

theorem follows_pushText (h : d.Represents t) (s : String) :
    (pushText s).Follows Represents d (t.pushText s) := by
  have hrun := run_pushText d s
  rw [Term.pushText_eq, Term.hasRoom, Term.put]
  rw [h.hasForms_eq, h.text] at hrun
  cases hforms : t.hasForms with
  | true =>
    rw [hforms, Term.text?_of_hasForms hforms] at hrun
    cases hblank : isBlank s with
    | true =>
      rw [hblank] at hrun
      exact ⟨d, hrun, h⟩
    | false =>
      rw [hblank] at hrun
      exact hrun
  | false =>
    rw [hforms] at hrun
    obtain ⟨hsingle, hmultiple⟩ := Term.forms_eq_none hforms
    refine ⟨_, hrun, h.attributes, rfl, ?_, ?_⟩
    · rw [h.single, hsingle]
      rfl
    · rw [h.multiple, hmultiple]
      rfl

theorem follows_dropBlankText (h : d.Represents t) (form : TextNode) :
    (dropBlankText form).Follows Represents d (t.dropBlankText form) := by
  have hrun := run_dropBlankText d form
  rw [Term.dropBlankText_eq, ← h.text]
  split_ifs with hblank
  · rw [if_pos hblank] at hrun
    exact ⟨_, hrun, h.attributes, rfl, h.single, h.multiple⟩
  · rw [if_neg hblank] at hrun
    exact hrun

theorem follows_attach (h : d.Represents t) (node : TextNode) :
    (attach node).Follows Represents d (t.attach node) := by
  obtain ⟨type?, attributes, s⟩ := node
  have hdrop := follows_dropBlankText h ⟨type?, attributes, s⟩
  obtain _ | b | ⟨serial, declaration⟩ := type?
  · exact follows_pushText h s
  · cases b with
    | single =>
      refine hdrop.bind (f := fun u => u.putSingle ⟨attributes, s⟩) fun d' u hu hd' => ?_
      exact ⟨_, rfl, hd'.attributes, hd'.text.trans (Term.text?_of_dropBlankText hu), rfl,
        hd'.multiple⟩
    | multiple =>
      refine hdrop.bind (f := fun u => u.putMultiple ⟨attributes, s⟩) fun d' u hu hd' => ?_
      exact ⟨_, rfl, hd'.attributes, hd'.text.trans (Term.text?_of_dropBlankText hu), hd'.single,
        rfl⟩
    | locale | styleOptions | terms | term => exact rfl
  · exact rfl

theorem follows_add (h : d.Represents t) (a : Addition) :
    (add a).Follows Represents d (t.add a) := by
  cases a with
  | text s => exact follows_pushText h s
  | child c =>
    cases c with
    | text node => exact follows_attach h node
    | element | term | terms => exact rfl

end TermDraft

/-! ## Nodes -/

/-- A node as it is stored. -/
inductive NodeDraft where
  | element (type? : Option NodeType) (name : String) (attributes : Attributes)
      (children : List Node)
  | text (t : TextNode)
  | term (d : TermDraft)
  | terms (table : TermTable)

namespace NodeDraft

/-- Carries out an operation on a term that is stored as a node. -/
def onTerm (x : Editing TermDraft Unit) (d : TermDraft) : Editing NodeDraft Unit := do
  set (term (x.run.run d).2)
  match (x.run.run d).1 with
  | .ok () => pure ()
  | .error e => throw e

/-- Adds a child or text. -/
def add (a : Addition) : Editing NodeDraft Unit := do
  match ← get, a with
  | element type? name attributes children, .child c =>
    set (element type? name attributes (children ++ [c]))
  | element type? name attributes children, .text s =>
    set (element type? name attributes (Node.pushRaw s children))
  | text t, .child c => throw (Node.invalidChild t.name c)
  | text t, .text s => set (text (t.push s))
  | term d, a => onTerm (TermDraft.add a) d
  | terms table, .child (.term t) => set (terms (table.push t))
  | terms _, .child c => throw (Node.invalidChild "terms" c)
  | terms _, .text s => unless isBlank s do throw (.invalidChild "terms" "text")

/-- What is stored represents a node. -/
inductive Represents : NodeDraft → Node → Prop
  | element (type? : Option NodeType) (name : String) (attributes : Attributes)
      (children : List Node) :
      Represents (.element type? name attributes children) (.element type? name attributes children)
  | text (t : TextNode) : Represents (.text t) (.text t)
  | term {d : TermDraft} {t : Term} : d.Represents t → Represents (.term d) (.term t)
  | terms (table : TermTable) : Represents (.terms table) (.terms table)

variable {p p' : NodeDraft} {n : Node}

theorem exists_represents (n : Node) : ∃ p : NodeDraft, p.Represents n := by
  cases n with
  | element type? name attributes children => exact ⟨_, .element type? name attributes children⟩
  | text t => exact ⟨_, .text t⟩
  | term t => exact ⟨_, .term (TermDraft.represents_draft t)⟩
  | terms table => exact ⟨_, .terms table⟩

theorem run_onTerm (x : Editing TermDraft Unit) (d : TermDraft) :
    (onTerm x d).run.run (term d) = ((x.run.run d).1, term (x.run.run d).2) := by
  unfold onTerm
  cases (x.run.run d).1 <;> rfl

theorem run_add_text_terms (table : TermTable) (s : String) :
    (add (.text s)).run.run (terms table) =
      if isBlank s then (.ok (), terms table)
      else (.error (.invalidChild "terms" "text"), terms table) := by
  rw [add, Editing.run_get_bind]
  dsimp only
  split_ifs <;> rfl

theorem follows_onTerm {x : Editing TermDraft Unit} {d : TermDraft} {result : Except Error Term}
    (h : x.Follows TermDraft.Represents d result) :
    (onTerm x d).Follows Represents (term d) (result.map .term) := by
  have hrun := run_onTerm x d
  cases result with
  | ok t =>
    obtain ⟨d', hd', hrepresents⟩ := h
    rw [hd'] at hrun
    exact ⟨term d', hrun, .term hrepresents⟩
  | error e =>
    have hd : x.run.run d = (.error e, d) := h
    rw [hd] at hrun
    exact hrun

/-- Adding in place follows adding. -/
theorem follows_add (h : p.Represents n) (a : Addition) :
    (add a).Follows Represents p (n.add a) := by
  cases h with
  | element type? name attributes children =>
    cases a with
    | child c => exact ⟨_, rfl, .element ..⟩
    | text s => exact ⟨_, rfl, .element ..⟩
  | text t =>
    cases a with
    | child c => exact rfl
    | text s => exact ⟨_, rfl, .text _⟩
  | terms table =>
    cases a with
    | child c =>
      cases c with
      | term t => exact ⟨_, rfl, .terms _⟩
      | element | text | terms => exact rfl
    | text s =>
      have hrun := run_add_text_terms table s
      rw [Node.add, Node.pushText]
      split_ifs at hrun ⊢
      · exact ⟨_, hrun, .terms table⟩
      · exact hrun
  | @term d t h =>
    rw [Node.add_term_eq_map]
    exact follows_onTerm (TermDraft.follows_add h a)

end NodeDraft

/-! ## What is admitted -/

namespace Node

/-- What a node admits as a child. A term admits text if it has no forms, or if the text is blank,
and forms if it has no text that is not blank; only nodes of the two built-in types are forms. -/
def Admits : Node → Node → Prop
  | .element .., _ => True
  | .terms _, child => child.kind = .term
  | .term t, .text node =>
    (node.isRaw = true ∧ (t.hasForms = false ∨ isBlank node.text = true)) ∨
      (node.IsForm ∧ ∀ s, t.text? = some s → isBlank s = true)
  | .term _, _ => False
  | .text _, _ => False

/-- Whether a node refuses text that is not blank. -/
def RefusesText : Node → Prop
  | .terms _ => True
  | .term t => t.hasForms = true
  | _ => False

variable {node child n : Node}

theorem isBlank_getD_iff {text? : Option String} :
    isBlank (text?.getD "") = true ↔ ∀ s, text? = some s → isBlank s = true := by
  cases text? <;> simp [isBlank]

theorem append_text_eq_ok_iff {t : Term} {form : TextNode} :
    (∃ n, (Node.term t).append (.text form) = .ok n) ↔ (Node.term t).Admits (.text form) := by
  have happend : (∃ n, (Node.term t).append (.text form) = .ok n) ↔
      ∃ p, form.place? = some p ∧ t.hasRoom p form.text = true := by
    show (∃ n, (Node.term t).add (.child (.text form)) = .ok n) ↔ _
    simp only [add_term_eq_ok, Addition.brings?, Option.map_eq_some_iff, Prod.mk.injEq]
    constructor
    · rintro ⟨_, _, _, ⟨p, hplace, rfl, rfl⟩, hroom, rfl⟩
      exact ⟨p, hplace, hroom⟩
    · rintro ⟨p, hplace, hroom⟩
      exact ⟨_, p, _, ⟨p, hplace, rfl, rfl⟩, hroom, rfl⟩
  rw [happend]
  obtain ⟨type?, attributes, s⟩ := form
  obtain _ | b | ⟨serial, declaration⟩ := type?
  · simp [TextNode.place?, Term.hasRoom, Admits, TextNode.isRaw, TextNode.IsForm]
  · cases b <;>
      simp [TextNode.place?, Term.hasRoom, Admits, TextNode.isRaw, TextNode.IsForm,
        isBlank_getD_iff]
  · simp [TextNode.place?, Admits, TextNode.isRaw, TextNode.IsForm]

theorem append_eq_ok_iff : (∃ n, node.append child = .ok n) ↔ node.Admits child := by
  cases node with
  | element type? name attributes children => exact ⟨fun _ => trivial, fun _ => ⟨_, rfl⟩⟩
  | text t => simp [append, Admits]
  | terms table => cases child <;> simp [append, Admits, kind]
  | term t =>
    cases child with
    | text form => exact append_text_eq_ok_iff
    | element | term | terms => simp [append, Admits]

theorem pushText_eq_error_iff {s : String} :
    (∃ e, node.pushText s = .error e) ↔ isBlank s = false ∧ node.RefusesText := by
  cases node with
  | element type? name attributes children => simp [pushText, RefusesText]
  | text t => simp [pushText, RefusesText]
  | terms table => cases hblank : isBlank s <;> simp [pushText, RefusesText, hblank]
  | term t =>
    have hroom : t.hasRoom .flat s = false ↔ isBlank s = false ∧ t.hasForms = true := by
      rw [Term.hasRoom, Bool.or_eq_false_iff, Bool.not_eq_false', and_comm]
    rw [pushText, Term.pushText_eq, RefusesText, ← hroom]
    cases t.hasRoom .flat s <;> simp

/-- Elements and term tables keep their children, and the new one comes after them. -/
theorem children_append (h : node.append child = .ok n)
    (hkind : node.kind = .element ∨ node.kind = .terms) :
    n.children = node.children ++ [child] := by
  cases node with
  | element type? name attributes children =>
    obtain rfl := Except.ok.inj h
    rfl
  | terms table =>
    cases child with
    | term t =>
      obtain rfl := Except.ok.inj h
      simp [children, TermTable.push]
    | element | text | terms => simp [append] at h
  | text | term => simp [kind] at hkind

theorem head_add {a : Addition} (h : node.add a = .ok n) : n.head = node.head := by
  cases a with
  | child c => exact head_append h
  | text s => exact head_pushText h

/-- A child is taken just when it is admitted, and text is refused just when it is not blank and the
node is one that refuses it. A declared type is never that of a form, whatever its contents. In
place an addition that is refused leaves everything as it was, and one that is taken stores the node
with the addition: kind, type, name and record stay, and elements and term tables have the child
behind those from before. -/
theorem add_exact :
    (∀ node child : Node, (∃ n, node.append child = .ok n) ↔ node.Admits child) ∧
    (∀ (t : Term) (serial : Nat) (d : Declaration) (attributes : Attributes) (s : String),
      ¬ (Node.term t).Admits (.text ⟨some (.declared serial d), attributes, s⟩)) ∧
    (∀ (node : Node) (s : String),
      (∃ e, node.pushText s = .error e) ↔ isBlank s = false ∧ node.RefusesText) ∧
    (∀ node : Node, (∃ p : NodeDraft, p.Represents node) ∧ ∀ (p : NodeDraft) (a : Addition),
      p.Represents node → (NodeDraft.add a).Follows NodeDraft.Represents p (node.add a)) ∧
    (∀ (node : Node) (a : Addition) (n : Node), node.add a = .ok n → n.head = node.head) ∧
    ∀ node child n : Node, node.append child = .ok n →
      node.kind = .element ∨ node.kind = .terms → n.children = node.children ++ [child] := by
  refine ⟨fun _ _ => append_eq_ok_iff, fun t serial d attributes s => ?_,
    fun _ _ => pushText_eq_error_iff,
    fun node => ⟨NodeDraft.exists_represents node, fun p a h => NodeDraft.follows_add h a⟩,
    fun _ _ _ => head_add, fun _ _ _ => children_append⟩
  simp [Admits, TextNode.isRaw, TextNode.IsForm]

end Node

end CitationLocale
