import CitationLocale.Proofs.KeyOrder
import CitationLocale.Proofs.Position
import CitationLocale.Proofs.RestoredTree

/-!
# Editing the attributes of a tree that was read

However the attributes of a tree that was read are edited, the tree can be written and read back
(`Node.parse_toXml_after_edits`). Markup has no place for attributes of raw text and no spelling
for a name without value, so three kinds of edits are lost (`Node.parse_toXml_loses_edits`); a tree
without their traces is read back as it was edited.
-/

namespace CitationLocale

open Markup

/-! ## Edits of a record -/

/-- An edit of one record. -/
inductive AttributeEdit where
  | set (key value : String)
  | clear (key : String)
  | merge (value : Json)

namespace AttributeEdit

/-- The record after an edit. What cannot be merged leaves the record as it is. -/
def apply : AttributeEdit → Attributes → Attributes
  | set key value, r => r.set key value
  | clear key, r => r.clear key
  | merge value, r =>
    match r.mergeJson value with
    | .ok merged => merged
    | .error _ => r

/-- The names that an edit mentions. -/
def keys : AttributeEdit → List String
  | set key _ => [key]
  | clear key => [key]
  | merge (.object members) => members.map Prod.fst
  | merge _ => []

end AttributeEdit

namespace AttributeEdit

variable (e : AttributeEdit) {r : Attributes}

theorem schema?_apply : (e.apply r).schema? = r.schema? := by
  cases e with
  | set key value => exact Attributes.schema?_set r key value
  | clear key => rfl
  | merge value =>
    cases value with
    | object members => exact Attributes.schema?_extend r _
    | null | bool | number | string | array => rfl

theorem isSound_apply (h : r.IsSound) : (e.apply r).IsSound := by
  cases e with
  | set key value => exact h.set key value
  | clear key => exact h.clear key
  | merge value =>
    cases value with
    | object members => exact h.extend _
    | null | bool | number | string | array => exact h

/-- An edit brings no names into a record but those that it mentions. -/
theorem mem_keys_apply {k : String} (h : k ∈ (e.apply r).keys) : k ∈ r.keys ∨ k ∈ e.keys := by
  cases e with
  | set key value => exact (Attributes.mem_keys_set_iff.1 h).imp_right fun h => List.mem_singleton.2 h.1
  | clear key =>
    left
    rwa [apply, Attributes.keys_clear] at h
  | merge value =>
    cases value with
    | object members =>
      exact (Attributes.mem_keys_extend_iff.1 h).imp_right fun h =>
        Attributes.mem_keys_storedPairs h.1
    | null | bool | number | string | array => exact .inl h

end AttributeEdit

/-! ## Edits of a tree -/

namespace Node

/-- The tree after an edit of the attributes at a path. Nothing changes if the path leads
nowhere. -/
def edit (n : Node) (path : List Nat) (e : AttributeEdit) : Node :=
  (n.mapAttributesAt? e.apply path).getD n

/-- The tree after some edits, one after the other. -/
def editAll (n : Node) (edits : List (List Nat × AttributeEdit)) : Node :=
  edits.foldl (fun n e => n.edit e.1 e.2) n

/-- All names that are written for a node are XML names. -/
structure HasXmlNames (n : Node) : Prop where
  name : IsXmlName n.name
  keys : ∀ k ∈ n.attributes.keys, IsXmlName k

variable {r : Registry} {n n' t : Node} {e : AttributeEdit}

theorem isRaw_eq_of_frame {m n : Node} (h : m.frame = n.frame) : m.isRaw = n.isRaw := by
  have hkind : m.kind = n.kind := congrArg Prod.fst h
  have htype : m.type? = n.type? := congrArg (·.2.1) h
  rw [Bool.eq_iff_iff, isRaw_iff, isRaw_iff, hkind, htype]

theorem apart_iff_of_frame {ms ns : List Node} (h : ms.map frame = ns.map frame) :
    (ms.IsChain fun a b => ¬ (a.isRaw = true ∧ b.isRaw = true)) ↔
      ns.IsChain fun a b => ¬ (a.isRaw = true ∧ b.isRaw = true) := by
  have hframes (ns : List Node) : (ns.IsChain fun a b => ¬ (a.isRaw = true ∧ b.isRaw = true)) ↔
      (ns.map frame).IsChain fun a b => ¬ ((a.1 = .text ∧ a.2.1 = none) ∧
        b.1 = .text ∧ b.2.1 = none) := by
    simp only [List.isChain_map, isRaw_iff, frame]
  rw [hframes, h, hframes]

/-- Being read does not depend on the values of attributes. -/
theorem IsRead.of_isRetouched (h : n.IsRead r) (hn : IsRetouched e.apply n n') :
    n'.IsRead r := by
  have hkind : n'.kind = n.kind := congrArg Prod.fst hn.frame
  have htype : n'.type? = n.type? := congrArg (·.2.1) hn.frame
  have hname : n'.name = n.name := congrArg (·.2.2.1) hn.frame
  refine { made := fun hraw => ?_, text := fun t ht hraw => ?_, apart := ?_, record := ?_,
           schema := ?_ }
  · rw [isRaw_eq_of_frame hn.frame] at hraw
    exact (h.made hraw).of_eq hkind htype hname
  · -- the raw text was there before the edit
    have hframe : (Node.text t).frame ∈ n.children.map frame :=
      hn.children ▸ List.mem_map_of_mem ht
    obtain ⟨c, hc, hct⟩ := List.mem_map.1 hframe
    cases c with
    | text u =>
      have htext : u.text = t.text := Option.some.inj (congrArg (·.2.2.2) hct)
      have hraw' : u.isRaw = true := (isRaw_eq_of_frame hct).trans hraw
      rw [← htext]
      exact h.text u hc hraw'
    | element | term | terms => simp [frame, kind] at hct
  · exact (apart_iff_of_frame hn.children).2 h.apart
  · rcases hn.attributes with hsame | hedited
    · exact hsame ▸ h.record
    · exact hedited ▸ e.isSound_apply h.record
  · rw [htype, ← h.schema]
    rcases hn.attributes with hsame | hedited
    · rw [hsame]
    · rw [hedited, e.schema?_apply]

theorem HasXmlNames.of_isRetouched (hkeys : ∀ k ∈ e.keys, IsXmlName k) (h : n.HasXmlNames)
    (hn : IsRetouched e.apply n n') : n'.HasXmlNames := by
  have hname : n'.name = n.name := congrArg (·.2.2.1) hn.frame
  refine ⟨hname ▸ h.name, fun k hk => ?_⟩
  rcases hn.attributes with hsame | hedited
  · exact h.keys k (hsame ▸ hk)
  · rcases e.mem_keys_apply (hedited ▸ hk) with hk | hk
    · exact h.keys k hk
    · exact hkeys k hk

theorem Everywhere.edit {P : Node → Prop} (hP : ∀ m m', IsRetouched e.apply m m' → P m → P m')
    (h : n.Everywhere P) (path : List Nat) : (n.edit path e).Everywhere P := by
  rw [Node.edit]
  cases hn : n.mapAttributesAt? e.apply path with
  | none => exact h
  | some n' => exact h.mapAttributesAt? hP hn

theorem HasXmlNames.assigned (h : n.HasXmlNames) : ∀ a ∈ n.attributes.assigned, IsXmlName a.1 :=
  fun a ha => h.keys a.1 (n.attributes.assigned_keys_sublist.subset (List.mem_map_of_mem ha))

theorem IsRead.isWritable_of_names (hr : r.HasDistinctNames) (h : n.IsRead r)
    (hnames : n.HasXmlNames) : n.IsWritable :=
  h.isWritable hr hnames.name hnames.assigned

theorem frame_edit (n : Node) (path : List Nat) (e : AttributeEdit) :
    (n.edit path e).frame = n.frame := by
  rw [edit]
  cases hn : n.mapAttributesAt? e.apply path with
  | none => rfl
  | some n' => exact frame_mapAttributesAt? hn

/-- A tree that was read still has what is needed to read it again after it was edited. -/
theorem everywhere_editAll (edits : List (List Nat × AttributeEdit))
    (hkeys : ∀ e ∈ edits, ∀ k ∈ e.2.keys, IsXmlName k)
    (h : n.Everywhere fun m => m.IsRead r ∧ m.HasXmlNames) :
    (n.editAll edits).isRaw = n.isRaw ∧
      (n.editAll edits).Everywhere fun m => m.IsRead r ∧ m.HasXmlNames := by
  induction edits generalizing n with
  | nil => exact ⟨rfl, h⟩
  | cons e edits ih =>
    rw [List.forall_mem_cons] at hkeys
    have hedit := h.edit (fun m m' hm hP =>
      ⟨hP.1.of_isRetouched hm, hP.2.of_isRetouched hkeys.1 hm⟩) e.1
    obtain ⟨hraw, hall⟩ := ih hkeys.2 hedit
    exact ⟨hraw.trans (isRaw_eq_of_frame (n.frame_edit e.1 e.2)), hall⟩

theorem parse_toXml_editAll {s : String} (edits : List (List Nat × AttributeEdit))
    (h : Node.parse s = .ok t) (hnames : t.Everywhere HasXmlNames)
    (hkeys : ∀ e ∈ edits, ∀ k ∈ e.2.keys, IsXmlName k) :
    Node.parse (t.editAll edits).toXml = .ok (t.editAll edits).restored ∧
      (t.editAll edits).Everywhere (IsRead .builtins) := by
  obtain ⟨hraw, hread⟩ := everywhere_isRead Registry.hasUsualNames_builtins h
  obtain ⟨hraw', hedited⟩ := everywhere_editAll edits hkeys (hread.and hnames)
  have hread' := hedited.mono fun m hm => hm.1
  refine ⟨parseWith_toXml_of_isRead (hraw'.trans hraw) hread' (hedited.mono fun m hm => ?_), hread'⟩
  exact hm.1.isWritable_of_names Registry.hasDistinctNames_builtins hm.2

/-- After any edits of its attributes a tree that was read is written so that it can be read again,
and it is read as it was edited if markup spells all that it holds. -/
theorem parse_toXml_after_edits (s : String) (t : Node) (edits : List (List Nat × AttributeEdit))
    (h : Node.parse s = .ok t) (hnames : t.Everywhere HasXmlNames)
    (hkeys : ∀ e ∈ edits, ∀ k ∈ e.2.keys, IsXmlName k) :
    ∃ t', Node.parse (t.editAll edits).toXml = .ok t' ∧
      ((t.editAll edits).Everywhere IsSpelledOut → t'.compare? (t.editAll edits) = some .eq) := by
  obtain ⟨hparse, hread⟩ := parse_toXml_editAll edits h hnames hkeys
  refine ⟨_, hparse, fun hspelled => ?_⟩
  have hcomplete : (t.editAll edits).Everywhere IsComplete :=
    (hread.and hspelled).mono fun m hm => hm.1.isComplete Registry.hasDistinctNames_builtins hm.2
  rw [restored_eq hcomplete]
  exact compare?_self (hread.mono fun m hm => hm.record)

/-- The form is the only attribute of a term that has a default. -/
theorem eq_form_of_default {k : String}
    (h : ((Attributes.defaults termSchema).default? k).isSome = true) : k = "form" := by
  have hspecs : ∀ spec ∈ termSchema, spec.default?.isSome = true → spec.name = "form" := by decide
  rw [Attributes.default?_of_fixed rfl, Attributes.get?_defaults] at h
  cases hspec : termSchema.find? fun spec => spec.name == k with
  | none => simp [hspec] at h
  | some spec =>
    obtain rfl : spec.name = k := by simpa using List.find?_some hspec
    rw [hspec] at h
    exact hspecs spec (List.mem_of_find?_eq_some hspec) h

/-- Three edits of a document: a value made of markup characters, a merged form, and a name that is
taken away from a term. -/
theorem parse_toXml_after_three_edits :
    ∃ t, Node.parse "<a k='v'><term name='and'>x</term></a>" = .ok t ∧
      ∃ t', Node.parse (t.editAll [([], .set "k" "\"<&"),
        ([0], .merge (.object [("form", .string "short")])), ([0], .clear "name")]).toXml = .ok t' ∧
      t'.compare? (t.editAll [([], .set "k" "\"<&"),
        ([0], .merge (.object [("form", .string "short")])), ([0], .clear "name")]) = some .eq := by
  have hscan : scan "<a k='v'><term name='and'>x</term></a>" =
      ⟨[.start "a" [("k", "v")], .start "term" [("name", "and")], .text "x", .close "term",
        .close "a"], none⟩ := by
    decide +kernel
  have hbuild : (Item.element "a" [("k", "v")]
        [.element "term" [("name", "and")] [.text "x"]]).build .builtins =
      .ok (.element none "a" (.ofPairs [("k", "v")])
        [.term ((Term.named "and").setText "x")]) := by
    rfl
  have hparse := parse_of_scan _ hscan rfl rfl hbuild
  have hnames : (Node.element none "a" (.ofPairs [("k", "v")])
      [.term ((Term.named "and").setText "x")]).Everywhere HasXmlNames := by
    refine .intro ⟨by decide, by decide⟩ fun c hc => ?_
    obtain rfl := List.mem_singleton.1 hc
    exact .intro ⟨by decide, by decide⟩ fun d hd => absurd hd List.not_mem_nil
  obtain ⟨t', ht', hcompare⟩ := parse_toXml_after_edits _ _ [([], .set "k" "\"<&"),
    ([0], .merge (.object [("form", .string "short")])), ([0], .clear "name")] hparse hnames
    (by decide)
  refine ⟨_, hparse, t', ht', hcompare ?_⟩
  have hedited : (Node.element none "a" (.ofPairs [("k", "v")])
        [.term ((Term.named "and").setText "x")]).editAll [([], .set "k" "\"<&"),
          ([0], .merge (.object [("form", .string "short")])), ([0], .clear "name")] =
      .element none "a" (.ofPairs [("k", "\"<&")])
        [.term ((((Term.named "and").set "form" "short").clear "name").setText "x")] := by
    rfl
  rw [hedited]
  refine .intro ⟨fun h => absurd h (by decide), by decide, fun k h => nomatch h⟩ fun c hc => ?_
  obtain rfl := List.mem_singleton.1 hc
  refine .intro ⟨fun h => absurd h (by decide), by decide, fun k h => ?_⟩ fun d hd =>
    absurd hd List.not_mem_nil
  obtain rfl := eq_form_of_default h
  decide

/-- Reading a document and writing it after an edit with an XML name does not keep the edit. -/
def LosesEdit (s : String) (path : List Nat) (e : AttributeEdit) : Prop :=
  ∃ t, Node.parse s = .ok t ∧ t.Everywhere HasXmlNames ∧ (∀ k ∈ e.keys, IsXmlName k) ∧
    ¬ ∃ t', Node.parse (t.edit path e).toXml = .ok t' ∧ t'.compare? (t.edit path e) = some .eq

theorem losesEdit_of_restored {s : String} {path : List Nat} (h : Node.parse s = .ok t)
    (hnames : t.Everywhere HasXmlNames) (hkeys : ∀ k ∈ e.keys, IsXmlName k)
    (hne : (t.edit path e).restored.compare? (t.edit path e) ≠ some .eq) : LosesEdit s path e := by
  refine ⟨t, h, hnames, hkeys, ?_⟩
  rintro ⟨t', ht', hcompare⟩
  have hparse : Node.parse (t.edit path e).toXml = .ok (t.edit path e).restored :=
    (parse_toXml_editAll [(path, e)] h hnames (by simpa using hkeys)).1
  obtain rfl : t' = (t.edit path e).restored := Except.ok.inj (ht'.symm.trans hparse)
  exact hne hcompare

/-- An attribute of raw text is not written, a name without value is not written either, and a
default stands again where it was taken away. -/
theorem parse_toXml_loses_edits :
    LosesEdit "<a>x</a>" [0] (.set "k" "v") ∧ LosesEdit "<a k='v'/>" [] (.clear "k") ∧
      LosesEdit "<term/>" [] (.clear "form") := by
  refine ⟨?_, ?_, ?_⟩
  · have hscan : scan "<a>x</a>" = ⟨[.start "a" [], .text "x", .close "a"], none⟩ := by
      decide +kernel
    have hparse : Node.parse "<a>x</a>" = .ok (.element none "a" .empty [.text (.raw "x")]) :=
      parse_of_scan (.element "a" [] [.text "x"]) hscan rfl rfl (by rfl)
    refine losesEdit_of_restored hparse (.intro ⟨by decide, by decide⟩ fun c hc => ?_) (by decide)
      (by decide)
    obtain rfl := List.mem_singleton.1 hc
    exact .intro ⟨by decide, by decide⟩ fun d hd => absurd hd List.not_mem_nil
  · have hscan : scan "<a k='v'/>" = ⟨[.empty "a" [("k", "v")]], none⟩ := by
      decide +kernel
    have hparse : Node.parse "<a k='v'/>" = .ok (.generic "a" (.ofPairs [("k", "v")])) :=
      parse_of_scan (.empty "a" [("k", "v")]) hscan rfl rfl (by rfl)
    refine losesEdit_of_restored hparse (.intro ⟨by decide, by decide⟩ fun c hc => ?_) (by decide)
      (by decide)
    exact absurd hc List.not_mem_nil
  · have hscan : scan "<term/>" = ⟨[.empty "term" []], none⟩ := by
      decide +kernel
    have hparse : Node.parse "<term/>" = .ok (.term (.create .empty)) :=
      parse_of_scan (.empty "term" []) hscan rfl rfl (by rfl)
    refine losesEdit_of_restored hparse (.intro ⟨by decide, by decide⟩ fun c hc => ?_) (by decide)
      (by decide)
    exact absurd hc List.not_mem_nil

end Node

end CitationLocale
