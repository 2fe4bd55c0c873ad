import Mathlib.Tactic.SplitIfs
import CitationLocale.Node.Growth
import CitationLocale.Proofs.Result

/-!
# Adding to a term

A term holds text at three places: flat, in the singular form and in the plural form. Whatever is
added to it brings a text to one of them, if there is room for this text beside what the term holds,
or is refused as an invalid child (`Node.add_term`).
-/

namespace CitationLocale

open Text

/-- The places at which a term holds text. -/
inductive Term.Place where
  | flat
  | single
  | multiple
deriving DecidableEq, Repr

/-- The place of a term that a text node is for: only the two built-in types are those of forms. -/
def TextNode.place? (node : TextNode) : Option Term.Place :=
  match node.type? with
  | none => some .flat
  | some (.builtin .single) => some .single
  | some (.builtin .multiple) => some .multiple
  | some _ => none

/-- What can be added to a node. -/
inductive Addition where
  | child (c : Node)
  | text (s : String)

namespace Addition

/-- The text that an addition brings to a term, and the place to which it brings it. -/
def brings? : Addition → Option (Term.Place × String)
  | child (.text node) => node.place?.map (·, node.text)
  | child _ => none
  | text s => some (.flat, s)

/-- The record that an addition brings along. -/
def record : Addition → Attributes
  | child c => c.attributes
  | text _ => .empty

/-- How the error says what a term refuses. -/
def label : Addition → String
  | child c => if c.isRaw then "text" else "<" ++ c.name ++ ">"
  | text _ => "text"

end Addition

/-- Adds a child or text to a node. -/
def Node.add (n : Node) : Addition → Except Error Node
  | .child c => n.append c
  | .text s => n.pushText s

namespace Term

/-- The text at a place of a term. -/
def textAt? (t : Term) : Place → Option String
  | .flat => t.text?
  | .single => t.single?
  | .multiple => t.multiple?

/-- Whether a text can come to a place: only blank text stands beside forms. -/
def hasRoom (t : Term) : Place → String → Bool
  | .flat, s => !t.hasForms || isBlank s
  | _, _ => isBlank (t.text?.getD "")

/-- The term with a text at a place, which a form holds along with a record: flat text is appended,
and dropped beside forms. -/
def put (t : Term) : Place → Attributes → String → Term
  | .flat, _, s => if t.hasForms then t else t.setText (t.text?.getD "" ++ s)
  | .single, r, s => t.putSingle ⟨r, s⟩
  | .multiple, r, s => t.putMultiple ⟨r, s⟩

variable {t : Term} {node : TextNode}

@[simp] theorem attributes_put (t : Term) (p : Place) (r : Attributes) (s : String) :
    (t.put p r s).attributes = t.attributes := by
  cases p with
  | flat =>
    unfold put
    split_ifs <;> rfl
  | single | multiple => rfl

theorem hasForms_eq_false_of_text {s : String} (h : t.text? = some s) : t.hasForms = false := by
  unfold text? at h
  split at h
  · next old hold => simp [hasForms, singleForm?, multipleForm?, hold]
  · simp at h

theorem text?_of_hasForms (h : t.hasForms = true) : t.text? = none := by
  cases htext : t.text? with
  | none => rfl
  | some s =>
    rw [hasForms_eq_false_of_text htext] at h
    exact absurd h Bool.false_ne_true

theorem forms_eq_none (h : t.hasForms = false) :
    t.singleForm? = none ∧ t.multipleForm? = none := by
  rwa [hasForms, Bool.or_eq_false_iff, Option.isSome_eq_false_iff, Option.isSome_eq_false_iff,
    Option.isNone_iff_eq_none, Option.isNone_iff_eq_none] at h

/-! ## One addition -/

theorem pushText_eq (t : Term) (s : String) : t.pushText s =
    if t.hasRoom .flat s then .ok (t.put .flat .empty s)
    else .error (.invalidChild "term" "text") := by
  unfold pushText
  split
  · next old hold =>
    have htext : t.text? = some old := by rw [text?, hold]
    simp [hasRoom, put, hasForms_eq_false_of_text htext, htext, setText]
  · next hnone =>
    have hforms : t.hasForms = false := by simp [hasForms, singleForm?, multipleForm?, hnone]
    have htext : t.text? = none := by rw [text?, hnone]
    simp [hasRoom, put, hforms, htext, setText]
  · next s? m? hnot hsome =>
    have hforms : t.hasForms = true := by
      simp only [hasForms, singleForm?, multipleForm?, hsome, Bool.or_eq_true,
        Option.isSome_iff_ne_none]
      exact not_and_or.1 fun h => hnot h.1 h.2
    simp [hasRoom, put, hforms]

/-- Dropping blank text leaves the forms. -/
theorem dropBlankText_eq (t : Term) (form : TextNode) : t.dropBlankText form =
    if isBlank (t.text?.getD "") then .ok { t with content := .forms t.singleForm? t.multipleForm? }
    else .error (.invalidChild "term" ("<" ++ form.name ++ ">")) := by
  unfold dropBlankText
  split
  · next old hold => simp [text?, singleForm?, multipleForm?, hold]
  · next s? m? hforms =>
    have hblank : isBlank (t.text?.getD "") = true := by rw [text?, hforms]; rfl
    rw [if_pos hblank, singleForm?, multipleForm?, hforms]
    simp [← hforms]

theorem text?_of_dropBlankText {u : Term} {form : TextNode} (h : t.dropBlankText form = .ok u) :
    u.text? = none := by
  rw [dropBlankText_eq] at h
  split_ifs at h
  obtain rfl := Except.ok.inj h
  rfl

theorem hasForms_put {p : Place} (hp : p ≠ .flat) (r : Attributes) (s : String) :
    (t.put p r s).hasForms = true := by
  cases p with
  | flat => exact absurd rfl hp
  | single => rfl
  | multiple => simp [put, putMultiple, hasForms, multipleForm?]

/-- Beside flat text that is not blank there is no room for a form. -/
theorem hasRoom_eq_false {p : Place} (hp : p ≠ .flat) (h : isBlank (t.text?.getD "") = false)
    (s : String) : t.hasRoom p s = false := by
  cases p with
  | flat => exact absurd rfl hp
  | single | multiple => exact h

/-- A text node brings what it holds to the place that it is for. -/
theorem attach_eq (t : Term) (node : TextNode) : t.attach node =
    match node.place? with
    | some p =>
      if t.hasRoom p node.text then .ok (t.put p node.attributes node.text)
      else .error (.invalidChild "term" (Addition.child (.text node)).label)
    | none => .error (.invalidChild "term" (Addition.child (.text node)).label) := by
  obtain ⟨type?, attributes, s⟩ := node
  obtain _ | b | ⟨serial, d⟩ := type?
  · exact pushText_eq t s
  · cases b with
    | single =>
      show t.dropBlankText _ >>= (fun u => .ok (u.putSingle ⟨attributes, s⟩)) =
        if isBlank (t.text?.getD "") then _ else _
      rw [dropBlankText_eq]
      split_ifs <;> rfl
    | multiple =>
      show t.dropBlankText _ >>= (fun u => .ok (u.putMultiple ⟨attributes, s⟩)) =
        if isBlank (t.text?.getD "") then _ else _
      rw [dropBlankText_eq]
      split_ifs <;> rfl
    | locale | styleOptions | terms | term => rfl
  · rfl

end Term

/-- Adds a child or text to a term. -/
def Term.add (t : Term) : Addition → Except Error Term
  | .child (.text node) => t.attach node
  | .child other => .error (Node.invalidChild "term" other)
  | .text s => t.pushText s

theorem Node.add_term_eq_map (t : Term) (a : Addition) :
    (Node.term t).add a = (t.add a).map .term := by
  cases a with
  | text s => rfl
  | child c => cases c <;> rfl

/-- A text node that is not raw text is not for the flat place. -/
theorem TextNode.ne_flat_of_place? {node : TextNode} {p : Term.Place} (h : node.isRaw = false)
    (hp : node.place? = some p) : p ≠ .flat := by
  rintro rfl
  obtain ⟨_ | b | ⟨serial, d⟩, attributes, s⟩ := node
  · exact absurd h Bool.noConfusion
  · cases b <;> simp [place?] at hp
  · simp [place?] at hp

/-- A term takes an addition just when it brings a text for which there is room. -/
theorem Node.add_term (t : Term) (a : Addition) : (Node.term t).add a =
    match a.brings? with
    | some (p, s) =>
      if t.hasRoom p s then .ok (.term (t.put p a.record s))
      else .error (.invalidChild "term" a.label)
    | none => .error (.invalidChild "term" a.label) := by
  cases a with
  | text s =>
    rw [add, pushText, Term.pushText_eq, Addition.brings?]
    dsimp only
    split_ifs <;> rfl
  | child c =>
    cases c with
    | element | term | terms => rfl
    | text node =>
      rw [add, append, Term.attach_eq, Addition.brings?]
      cases node.place? with
      | none => rfl
      | some p =>
        dsimp only [Option.map_some]
        split_ifs <;> rfl

namespace Node

variable {t : Term} {a : Addition} {n : Node}

theorem add_term_eq_ok : (Node.term t).add a = .ok n ↔
    ∃ p s, a.brings? = some (p, s) ∧ t.hasRoom p s = true ∧ n = .term (t.put p a.record s) := by
  rw [add_term]
  cases a.brings? with
  | none => simp
  | some brought =>
    obtain ⟨p, s⟩ := brought
    dsimp only
    split_ifs with hroom
    · constructor
      · intro h
        exact ⟨p, s, rfl, hroom, (Except.ok.inj h).symm⟩
      · rintro ⟨q, s', hbrings, -, rfl⟩
        obtain ⟨rfl, rfl⟩ : p = q ∧ s = s' := by simpa using hbrings
        rfl
    · simp [hroom]

theorem eq_of_add_term_eq_error {e : Error} (h : (Node.term t).add a = .error e) :
    e = .invalidChild "term" a.label := by
  rw [add_term] at h
  split at h
  · split_ifs at h
    exact (Except.error.inj h).symm
  · exact (Except.error.inj h).symm

theorem add_term_of_not_hasRoom {p : Term.Place} {s : String} (ha : a.brings? = some (p, s))
    (hroom : t.hasRoom p s = false) :
    (Node.term t).add a = .error (.invalidChild "term" a.label) := by
  rw [add_term, ha]
  simp [hroom]

end Node

end CitationLocale
