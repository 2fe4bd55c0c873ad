import CitationLocale.Proofs.Comparison
import CitationLocale.Proofs.ContentModel

/-!
# What a term keeps

No addition to a term drops flat text that is not blank, and none drops a form but to put another of
its kind in its place (`Term.holds_put`). So what a term still holds after a run of additions can
be read off the last text that the run brings to each place (`Node.foldlM_add_term`), and of the
forms in a document only the last one of each kind is left (`Markup.Item.isKeptBy_of_build`).
-/

namespace CitationLocale

open Markup Text

namespace Term

/-- A term holds a text at a place: the flat text contains it, or it is the form. -/
def Holds (t : Term) : Place → String → Prop
  | .flat, s => ∃ before after, t.text? = some (before ++ s ++ after)
  | .single, s => t.single? = some s
  | .multiple, s => t.multiple? = some s

variable {t : Term} {p q : Place} {r : Attributes} {s : String}

theorem holds_iff (hp : p ≠ .flat) : t.Holds p s ↔ t.textAt? p = some s := by
  cases p with
  | flat => exact absurd rfl hp
  | single | multiple => rfl

@[simp] theorem textAt?_create (supplied : Attributes) (p : Place) :
    (create supplied).textAt? p = none := by
  cases p <;> rfl

/-! ## One addition -/

/-- A form is what was brought to its place last. -/
theorem textAt?_put (t : Term) (p : Place) (r : Attributes) (s : String) (hq : q ≠ .flat) :
    (t.put p r s).textAt? q = if p = q then some s else t.textAt? q := by
  have hflat : (t.put .flat r s).single? = t.single? ∧
      (t.put .flat r s).multiple? = t.multiple? := by
    unfold put
    split_ifs with hforms
    · exact ⟨rfl, rfl⟩
    · obtain ⟨hsingle, hmultiple⟩ := forms_eq_none (eq_false_of_ne_true hforms)
      exact ⟨(congrArg (Option.map FormNode.text) hsingle).symm,
        (congrArg (Option.map FormNode.text) hmultiple).symm⟩
  cases q with
  | flat => exact absurd rfl hq
  | single =>
    cases p with
    | flat => exact hflat.1
    | single | multiple => rfl
  | multiple =>
    cases p with
    | flat => exact hflat.2
    | single | multiple => rfl

theorem Holds.hasRoom_eq_false (h : t.Holds .flat s) (hs : isBlank s = false) (hp : p ≠ .flat)
    (s' : String) : t.hasRoom p s' = false := by
  obtain ⟨before, after, htext⟩ := h
  refine Term.hasRoom_eq_false hp ?_ s'
  simp [htext, isBlank_append, hs]

/-- Flat text that is not blank stays where there is room for an addition: text is appended. -/
theorem Holds.put_flat {s' : String} (h : t.Holds .flat s) (hs : isBlank s = false)
    (hroom : t.hasRoom p s' = true) : (t.put p r s').Holds .flat s := by
  by_cases hp : p = .flat
  · subst hp
    obtain ⟨before, after, htext⟩ := h
    refine ⟨before, after ++ s', ?_⟩
    rw [put, hasForms_eq_false_of_text htext, htext]
    simp [setText, text?, String.append_assoc]
  · exact absurd hroom (by simp [h.hasRoom_eq_false hs hp])

/-- What is brought is held, unless it is blank. -/
theorem holds_put (hs : isBlank s = false) (hroom : t.hasRoom p s = true) :
    (t.put p r s).Holds p s := by
  cases p with
  | flat =>
    have hforms : t.hasForms = false := by simpa [hasRoom, hs] using hroom
    refine ⟨t.text?.getD "", "", ?_⟩
    simp [put, hforms, setText, text?]
  | single | multiple => rfl

end Term

/-! ## Runs of additions -/

namespace Addition

/-- The text that an addition brings to a place. -/
def textAt? (a : Addition) (p : Term.Place) : Option String :=
  match a.brings? with
  | some (q, s) => if q = p then some s else none
  | none => none

/-- The last text that a run of additions brings to a place. -/
def lastAt? : List Addition → Term.Place → Option String
  | [], _ => none
  | a :: as, p => (lastAt? as p).or (a.textAt? p)

end Addition

namespace Term

/-- Of the texts that are not blank and that a term holds, another one holds just those that a run
of additions does not replace: all flat text, and the forms of which the run does not bring others
last. -/
def KeptThrough (as : List Addition) (t u : Term) : Prop :=
  ∀ p s, isBlank s = false → t.Holds p s →
    (u.Holds p s ↔ p = .flat ∨ ∀ s', Addition.lastAt? as p = some s' → s' = s)

/-- Whether a run of additions replaces no form by another one; a blank form may be replaced. -/
def IsSparedBy (as : List Addition) (t : Term) : Prop :=
  ∀ p ≠ .flat, ∀ s s', isBlank s = false → t.Holds p s → Addition.lastAt? as p = some s' → s' = s

/-- What is kept through a run is everything just when the run replaces no form. -/
theorem KeptThrough.forall_holds_iff {as : List Addition} {t u : Term} (h : t.KeptThrough as u) :
    (∀ p s, isBlank s = false → t.Holds p s → u.Holds p s) ↔ t.IsSparedBy as := by
  constructor
  · intro hall p hp s s' hs hheld hlast
    exact ((h p s hs hheld).1 (hall p s hs hheld)).resolve_left hp s' hlast
  · intro hspared p s hs hheld
    refine (h p s hs hheld).2 ?_
    by_cases hp : p = .flat
    · exact .inl hp
    · exact .inr fun s' hlast => hspared p hp s s' hs hheld hlast

end Term

namespace Node

variable {t : Term} {n : Node} {as : List Addition}

/-- After a run of additions to a term a form is the last one that was brought, or the one from the
start, and flat text is still there. -/
theorem foldlM_add_term (h : as.foldlM Node.add (.term t) = .ok n) : ∃ u, n = .term u ∧
    (∀ q ≠ .flat, u.textAt? q = (Addition.lastAt? as q).or (t.textAt? q)) ∧
    ∀ s, isBlank s = false → t.Holds .flat s → u.Holds .flat s := by
  induction as generalizing t with
  | nil =>
    obtain rfl := Except.ok.inj h
    exact ⟨t, rfl, fun q _ => rfl, fun s _ hs => hs⟩
  | cons a as ih =>
    rw [List.foldlM_cons] at h
    obtain ⟨next, hnext, h⟩ := Result.bind_eq_ok.1 h
    obtain ⟨p, s, hbrings, hroom, rfl⟩ := add_term_eq_ok.1 hnext
    obtain ⟨u, rfl, hforms, hflat⟩ := ih h
    refine ⟨u, rfl, fun q hq => ?_, fun s' hs' hheld => hflat s' hs' (hheld.put_flat hs' hroom)⟩
    rw [hforms q hq, t.textAt?_put p a.record s hq, Addition.lastAt?, Addition.textAt?, hbrings]
    dsimp only
    split_ifs <;> cases Addition.lastAt? as q <;> rfl

theorem keptThrough_of_foldlM (h : as.foldlM Node.add (.term t) = .ok n) :
    ∃ u, n = .term u ∧ t.KeptThrough as u := by
  obtain ⟨u, rfl, hforms, hflat⟩ := foldlM_add_term h
  refine ⟨u, rfl, fun p s hs hheld => ?_⟩
  by_cases hp : p = .flat
  · subst hp
    exact ⟨fun _ => .inl rfl, fun _ => hflat s hs hheld⟩
  · rw [Term.holds_iff hp] at hheld ⊢
    rw [hforms p hp, hheld]
    cases Addition.lastAt? as p <;> simp [hp]

/-- What an addition in the middle of a run brings is kept through the rest of the run. -/
theorem keptThrough_of_foldlM_append {before after : List Addition} {a : Addition}
    (h : (before ++ a :: after).foldlM Node.add (.term t) = .ok n) :
    ∃ u, n = .term u ∧ ∀ p s, a.brings? = some (p, s) → isBlank s = false →
      (u.Holds p s ↔ p = .flat ∨ ∀ s', Addition.lastAt? after p = some s' → s' = s) := by
  rw [List.foldlM_append, Result.bind_eq_ok] at h
  obtain ⟨m, hbefore, h⟩ := h
  obtain ⟨v, rfl, -⟩ := foldlM_add_term hbefore
  rw [List.foldlM_cons, Result.bind_eq_ok] at h
  obtain ⟨next, hnext, hafter⟩ := h
  obtain ⟨p, s, hbrings, hroom, rfl⟩ := add_term_eq_ok.1 hnext
  obtain ⟨u, rfl, hkept⟩ := keptThrough_of_foldlM hafter
  refine ⟨u, rfl, fun q s' hbrings' hs => ?_⟩
  obtain ⟨rfl, rfl⟩ : p = q ∧ s = s' := by simpa [hbrings] using hbrings'
  exact hkept p s hs (Term.holds_put hs hroom)

end Node

/-! ## Documents -/

namespace Markup.Item

/-- One item is another, or is in its content. -/
inductive Contains : Item → Item → Prop
  | self (i : Item) : Contains i i
  | inside {name : String} {attributes : List (String × String)} {content : List Item}
      {c i : Item} : c ∈ content → Contains c i → Contains (.element name attributes content) i

variable {r : Registry} {i root : Item} {n m : Node} {t u : Term} {name : String}
  {attributes : List (String × String)} {content row : List Item}

theorem isElement_of_build (h : i.build r = .ok n) : i.isElement = true := by
  cases i with
  | element | empty => rfl
  | text | aside => simp [build] at h

theorem Contains.isElement (h : root.Contains i) (hi : i.isElement = true) :
    root.isElement = true := by
  cases h with
  | self => exact hi
  | inside => rfl

theorem exists_build_of_mem (h : build r (.element name attributes content) = .ok n) {c : Item}
    (hc : c ∈ content) (helement : c.isElement = true) : ∃ m, c.build r = .ok m := by
  obtain ⟨-, hfill⟩ := build_element_eq_ok.1 h
  obtain ⟨o, hfill, -⟩ := Result.bind_eq_ok.1 hfill
  exact exists_build_of_fill hfill c (List.mem_filter.2 ⟨hc, helement⟩)

/-- Every element in one that is built is built as well. -/
theorem exists_build_of_contains (h : root.Contains i) (hi : i.isElement = true)
    (hroot : root.build r = .ok n) : ∃ m, i.build r = .ok m := by
  induction h generalizing n with
  | self => exact ⟨n, hroot⟩
  | inside hc hin ih =>
    obtain ⟨m, hm⟩ := exists_build_of_mem hroot hc (hin.isElement hi)
    exact ih hi hm

theorem mem_of_childrenOf_of_build {run : String} {ns : List Node}
    (h : ChildrenOf r run row ns) (hi : i ∈ row) (hm : i.build r = .ok m) : m ∈ ns := by
  induction h with
  | nil => simp at hi
  | text _ ih | aside _ ih =>
    rcases List.mem_cons.1 hi with rfl | hi
    · simp [build] at hm
    · exact ih hi
  | @element run c row n ns _ hn _ ih =>
    rcases List.mem_cons.1 hi with rfl | hi
    · obtain rfl := Except.ok.inj (hn.symm.trans hm)
      simp
    · simp [ih hi]

/-- What is built from an element in another one is a child of the built node, unless it is a text
node, which a term takes as one of its forms. -/
theorem mem_children_of_build (h : build r (.element name attributes content) = .ok n) {c : Item}
    (hc : c ∈ content) (hm : c.build r = .ok m) (hkind : m.kind ≠ .text) : m ∈ n.children := by
  obtain ⟨-, hfill⟩ := build_element_eq_ok.1 h
  have hc' : c ∈ elements content := List.mem_filter.2 ⟨hc, isElement_of_build hm⟩
  have hchildren := r.children_create name (.ofPairs attributes)
  cases hcreate : r.create name (.ofPairs attributes) with
  | element type? name' attributes' children =>
    rw [hcreate] at hfill hchildren
    obtain rfl : children = [] := hchildren
    obtain ⟨o, hrun, -⟩ := Result.bind_eq_ok.1 hfill
    obtain ⟨ns, hns⟩ := exists_childrenOf "" (exists_build_of_fill hrun)
    rw [fill_element hns (by simp), List.nil_append] at hfill
    obtain rfl := Except.ok.inj hfill
    exact mem_of_childrenOf_of_build hns hc hm
  | text t =>
    rw [hcreate] at hfill
    obtain ⟨o, hrun, -⟩ := Result.bind_eq_ok.1 hfill
    rw [elements_eq_nil_of_fill_text rfl hrun] at hc'
    exact absurd hc' List.not_mem_nil
  | term t =>
    rw [hcreate] at hfill
    obtain rfl := Registry.eq_of_create_term hcreate
    obtain ⟨-, forms, hforms, -, -⟩ :=
      (fill_term_eq_ok rfl (.inl (List.ne_nil_of_mem hc'))).1 hfill
    obtain ⟨form, hform⟩ := (exists_of_map_build hforms).1 c hc'
    obtain rfl := Except.ok.inj (hm.symm.trans hform)
    exact absurd rfl hkind
  | terms table =>
    rw [hcreate] at hfill
    obtain ⟨-, ts, hts, rfl⟩ := fill_terms_eq_ok.1 hfill
    have hmem : c.build r ∈ ts.map fun t => .ok (.term t) := by
      rw [← hts]
      exact List.mem_map_of_mem hc'
    obtain ⟨t, ht, hbuild⟩ := List.mem_map.1 hmem
    obtain rfl := Except.ok.inj (hbuild.trans hm)
    exact List.mem_map_of_mem (List.mem_append_right _ ht)

/-- A term that is built from an element in a document is in the tree of the document. -/
theorem within_of_contains (h : root.Contains i) (hroot : root.build r = .ok n)
    (hi : i.build r = .ok (.term u)) : (Node.term u).Within n := by
  induction h generalizing n with
  | self =>
    obtain rfl := Except.ok.inj (hi.symm.trans hroot)
    exact .root _
  | @inside _ _ _ c i hc hin ih =>
    obtain ⟨m, hm⟩ := exists_build_of_mem hroot hc (hin.isElement (isElement_of_build hi))
    have hwithin : (Node.term u).Within m := ih hm hi
    refine .inside (mem_children_of_build hroot hc hm fun hkind => ?_) hwithin
    -- a text node has nothing below it
    cases m with
    | element | term | terms => simp [Node.kind] at hkind
    | text node =>
      cases hwithin with
      | inside hmem _ => simp [Node.children] at hmem

/-- A term holds what an element contains: text, if it is not blank, and of the forms the last one
of each kind. -/
structure IsKeptBy (r : Registry) (i : Item) (u : Term) : Prop where
  text : isBlank (characterData i.content) = false → u.text? = some (characterData i.content)
  forms : ∃ forms : List TextNode,
    (elements i.content).map (build r) = forms.map (fun form => .ok (.text form)) ∧
      (∀ form ∈ forms, form.IsForm) ∧ ∀ p ≠ .flat,
        u.textAt? p = Addition.lastAt? (forms.map fun form => .child (.text form)) p

/-- A new term that takes some forms one after the other keeps the last one of each kind. -/
theorem textAt?_of_forms {forms : List TextNode} (hforms : ∀ form ∈ forms, form.IsForm)
    {supplied : Attributes} (hu : u = forms.foldl Term.withForm (.create supplied))
    {p : Term.Place} (hp : p ≠ .flat) :
    u.textAt? p = Addition.lastAt? (forms.map fun form => .child (.text form)) p := by
  have hraw : ∀ n ∈ forms.map Node.text, n.isRaw = false := by
    intro n hn
    obtain ⟨form, hform, rfl⟩ := List.mem_map.1 hn
    exact (hforms form hform).isRaw_eq_false
  have hrun : (forms.map Node.text).foldlM Node.append (.term (.create supplied)) =
      .ok (.term u) := (foldlM_append_forms hraw rfl).2 ⟨forms, rfl, hforms, by rw [hu]⟩
  have hadd : (forms.map fun form => Addition.child (.text form)).foldlM Node.add
      (.term (.create supplied)) = .ok (.term u) := by
    rw [← hrun, List.foldlM_map, List.foldlM_map]
    rfl
  obtain ⟨v, hv, hlast, -⟩ := Node.foldlM_add_term hadd
  obtain rfl := Node.term.inj hv
  rw [hlast p hp, Term.textAt?_create, Option.or_none]

/-- The term of an element keeps what the element contains. -/
theorem isKeptBy_of_build (h : i.build r = .ok (.term u)) : i.IsKeptBy r u := by
  have hkind := Node.kind_eq_of_head (head_build r h)
  have hfresh : ∃ t, i.fresh r = .term t := by
    cases hcreate : i.fresh r with
    | term t => exact ⟨t, rfl⟩
    | element | text | terms => simp [hcreate, Node.kind] at hkind
  obtain ⟨t, hfresh⟩ := hfresh
  obtain rfl := Registry.eq_of_create_term hfresh
  cases i with
  | text | aside => simp [build] at h
  | empty name attributes =>
    obtain rfl := Node.term.inj (hfresh.symm.trans (Except.ok.inj h))
    refine ⟨fun hdata => absurd hdata (by simp [content, characterData, isBlank]), [], rfl, ?_, ?_⟩
    · simp
    · exact fun p _ => Term.textAt?_create _ p
  | element name attributes content =>
    obtain ⟨-, hfill⟩ := build_element_eq_ok.1 h
    rw [show r.create name (.ofPairs attributes) = _ from hfresh] at hfill
    by_cases helements : elements content = []
    · rw [fill_of_holdsText helements rfl] at hfill
      obtain rfl := Node.term.inj (Except.ok.inj hfill)
      refine ⟨fun _ => rfl, [], by rw [Item.content, helements]; rfl, by simp, fun p hp => ?_⟩
      cases p with
      | flat => exact absurd rfl hp
      | single | multiple => rfl
    · obtain ⟨hblank, forms, hforms, hisForm, hu⟩ :=
        (fill_term_eq_ok rfl (.inl helements)).1 hfill
      rw [String.empty_append] at hblank
      refine ⟨fun hdata => ?_, forms, hforms, hisForm, fun p hp => ?_⟩
      · rw [Item.content, hblank] at hdata
        exact absurd hdata (by simp)
      · exact textAt?_of_forms hisForm (Node.term.inj hu) hp

end Markup.Item

namespace Node

/-- A document that is read keeps the content of every term in it. -/
theorem exists_isKeptBy_of_parseWith {r : Registry} {s : String} {n : Node}
    (h : parseWith r s = .ok n) : ∃ row root, forest? (scan s).tokens = some row ∧
      Item.elements row = [root] ∧ ∀ i, root.Contains i → i.isElement = true →
        (i.fresh r).kind = .term →
          ∃ u, i.build r = .ok (.term u) ∧ (Node.term u).Within n ∧ i.IsKeptBy r u := by
  obtain ⟨-, row, root, hrow, hroot, hbuild⟩ := parseWith_eq_ok.1 h
  refine ⟨row, root, hrow, hroot, fun i hin hi hkind => ?_⟩
  obtain ⟨m, hm⟩ := Item.exists_build_of_contains hin hi hbuild
  have hkind : m.kind = .term := (kind_eq_of_head (Item.head_build r hm)).trans hkind
  cases m with
  | term u => exact ⟨u, hm, Item.within_of_contains hin hbuild hm, Item.isKeptBy_of_build hm⟩
  | element | text | terms => simp [kind] at hkind

/-- A run of additions to a term keeps all text in it that is not blank, except that a form gives
way to a later one of its kind; so it loses nothing just when it replaces no form. The same holds
of what the run itself brings. Text beside forms and a form beside text are refused as invalid
children, and so is whatever else is refused. Every term in a document that is read keeps its text,
and of its forms the last one of each kind. -/
theorem add_keeps_content (t : Term) (as : List Addition) :
    (∀ n, as.foldlM Node.add (.term t) = .ok n → ∃ u, n = .term u ∧ t.KeptThrough as u ∧
      ((∀ p s, isBlank s = false → t.Holds p s → u.Holds p s) ↔ t.IsSparedBy as)) ∧
    (∀ (before after : List Addition) (a : Addition) (n : Node), as = before ++ a :: after →
      as.foldlM Node.add (.term t) = .ok n →
        ∃ u, n = .term u ∧ ∀ p s, a.brings? = some (p, s) → isBlank s = false →
          (u.Holds p s ↔ p = .flat ∨ ∀ s', Addition.lastAt? after p = some s' → s' = s)) ∧
    (∀ (a : Addition) (p : Term.Place) (s : String), a.brings? = some (p, s) →
      (p = .flat ∧ isBlank s = false ∧ t.hasForms = true) ∨
        (p ≠ .flat ∧ ∃ held, isBlank held = false ∧ t.Holds .flat held) →
      (Node.term t).add a = .error (.invalidChild "term" a.label)) ∧
    (∀ (a : Addition) (e : Error), (Node.term t).add a = .error e →
      e = .invalidChild "term" a.label) ∧
    ∀ (r : Registry) (s : String) (n : Node), parseWith r s = .ok n →
      ∃ row root, forest? (scan s).tokens = some row ∧ Item.elements row = [root] ∧
        ∀ i, root.Contains i → i.isElement = true → (i.fresh r).kind = .term →
          ∃ u, i.build r = .ok (.term u) ∧ (Node.term u).Within n ∧ i.IsKeptBy r u := by
  refine ⟨fun n h => ?_, fun before after a n has h => ?_, fun a p s hbrings hbeside => ?_,
    fun _ _ => eq_of_add_term_eq_error, fun _ _ _ => exists_isKeptBy_of_parseWith⟩
  · obtain ⟨u, hu, hkept⟩ := keptThrough_of_foldlM h
    exact ⟨u, hu, hkept, hkept.forall_holds_iff⟩
  · subst has
    exact keptThrough_of_foldlM_append h
  · refine add_term_of_not_hasRoom hbrings ?_
    rcases hbeside with ⟨rfl, hs, hforms⟩ | ⟨hp, held, hheld, hflat⟩
    · simp [Term.hasRoom, hs, hforms]
    · exact hflat.hasRoom_eq_false hheld hp s

/-- Of two singular forms the first is lost, whether they are added to a term or read. -/
theorem append_replaces_form :
    isBlank "a" = false ∧ ((Term.create .empty).setSingle "a").Holds .single "a" ∧
      (Node.term ((Term.create .empty).setSingle "a")).append
        (.text (.typed (.builtin .single) .empty "b")) =
          .ok (.term ((Term.create .empty).setSingle "b")) ∧
      (∀ p, ¬ ((Term.create .empty).setSingle "b").Holds p "a") ∧
      parse "<term><single>a</single><single>b</single></term>" =
        .ok (.term ((Term.create .empty).setSingle "b")) := by
  have hscan : scan "<term><single>a</single><single>b</single></term>" =
      ⟨[.start "term" [], .start "single" [], .text "a", .close "single", .start "single" [],
        .text "b", .close "single", .close "term"], none⟩ := by
    decide +kernel
  refine ⟨by decide, rfl, rfl, fun p => ?_, ?_⟩
  · cases p with
    | flat =>
      rintro ⟨before, after, h⟩
      cases h
    | single =>
      intro h
      exact absurd (Option.some.inj h) (by decide)
    | multiple =>
      intro h
      cases h
  · have hsingle (s : String) : Item.build .builtins (.element "single" [] [.text s]) =
        .ok (.text (.typed (.builtin .single) .empty s)) := by
      rw [Item.build_element_eq_ok, Registry.create_single]
      exact ⟨Registry.name_single, rfl⟩
    let content : List Item := [.element "single" [] [.text "a"], .element "single" [] [.text "b"]]
    have hrow : forest? (scan "<term><single>a</single><single>b</single></term>").tokens =
        some [.element "term" [] content] := by
      rw [hscan]
      rfl
    have hparse : parse "<term><single>a</single><single>b</single></term>" =
        Item.build .builtins (.element "term" [] content) :=
      parseWith_of_forest (by rw [hscan]) hrow rfl
    rw [hparse, Item.build_element_eq_ok, Registry.create_term]
    refine ⟨rfl, (fill_term_eq_ok rfl (.inl (by simp [content, Item.elements, Item.isElement]))).2
      ⟨rfl, ["a", "b"].map (.typed (.builtin .single) .empty), ?_, ?_, rfl⟩⟩
    · exact congrArg₂ (fun m n => [m, n]) (hsingle "a") (hsingle "b")
    · simp [TextNode.IsForm, TextNode.typed]

end Node

end CitationLocale
