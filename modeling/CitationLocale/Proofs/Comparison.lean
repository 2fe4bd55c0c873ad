import Mathlib.Data.String.Basic
import CitationLocale.Proofs.BuiltTree

/-!
# The order of trees

Comparing is a partial order on trees whose nodes with one name have records of one schema
(`Node.compare?_coherent`). The proofs follow the comparison: names first, then records, then texts
or children, where two lists of children are compared up to the first pair that is not equal.
Reversing needs only that the records are sound; that equal trees compare alike, and that the order
is transitive, needs the schemas as well, because an open and a fixed record agree in another way
than two open ones.
-/

namespace CitationLocale

open Markup

/-! ## Texts -/

theorem compareText_eq_compare (s t : String) : compareText s t = compare s t :=
  (LinearOrder.compare_eq_compareOfLessAndEq s t).symm

theorem compareText_swap (s t : String) : compareText t s = (compareText s t).swap := by
  rw [compareText_eq_compare, compareText_eq_compare]
  exact Std.OrientedCmp.eq_swap

theorem compareText_eq_iff {s t : String} : compareText s t = .eq ↔ s = t := by
  rw [compareText_eq_compare, compare_eq_iff_eq]

theorem compareText_lt_iff {s t : String} : compareText s t = .lt ↔ s < t := by
  rw [compareText_eq_compare, compare_lt_iff_lt]

namespace Node

/-! ## Comparing step by step -/

/-- The order of two lists of nodes. -/
def compareNodes? (as bs : List Node) : Option Ordering :=
  Outline.compareChildren? (as.map outline) (bs.map outline)

theorem compareNodes?_cons (a b : Node) (as bs : List Node) :
    compareNodes? (a :: as) (b :: bs) =
      match a.compare? b with
      | some .eq => compareNodes? as bs
      | order? => order? := rfl

theorem compareNodes?_cons_eq_iff {a b : Node} {as bs : List Node} :
    compareNodes? (a :: as) (b :: bs) = some .eq ↔
      a.compare? b = some .eq ∧ compareNodes? as bs = some .eq := by
  rw [compareNodes?_cons]
  rcases a.compare? b with _ | _ | _ | _ <;> simp

theorem compareNodes?_cons_lt_iff {a b : Node} {as bs : List Node} :
    compareNodes? (a :: as) (b :: bs) = some .lt ↔
      a.compare? b = some .lt ∨ a.compare? b = some .eq ∧ compareNodes? as bs = some .lt := by
  rw [compareNodes?_cons]
  rcases a.compare? b with _ | _ | _ | _ <;> simp

/-- The order of two nodes that have the same name and records that agree. -/
def compareContent? (a b : Node) : Option Ordering :=
  match a.text?, b.text? with
  | some s, some t => some (compareText s t)
  | none, none => compareNodes? a.children b.children
  | _, _ => none

theorem compareContent?_eq_some_iff {a b : Node} {order : Ordering} :
    compareContent? a b = some order ↔
      (∃ s t, a.text? = some s ∧ b.text? = some t ∧ compareText s t = order) ∨
        a.text? = none ∧ b.text? = none ∧ compareNodes? a.children b.children = some order := by
  unfold compareContent?
  cases a.text? <;> cases b.text? <;> simp

theorem compareContent?_of_text {a b : Node} {s : String} (h : a.text? = some s) :
    compareContent? a b = b.text?.map (compareText s) := by
  rw [compareContent?, h]
  cases b.text? <;> rfl

theorem compareContent?_of_none {a b : Node} (h : a.text? = none) : compareContent? a b =
    if b.text? = none then compareNodes? a.children b.children else none := by
  rw [compareContent?, h]
  cases b.text? <;> rfl

theorem compare?_eq (a b : Node) : a.compare? b =
    match compareText a.name b.name with
    | .eq => if a.attributes.agrees b.attributes then compareContent? a b else none
    | order => some order := by
  rw [compare?, outline_eq, outline_eq, Outline.compare?]
  rfl

variable {a b c : Node} {as bs cs : List Node}

theorem compare?_eq_iff : a.compare? b = some .eq ↔ a.name = b.name ∧
    a.attributes.agrees b.attributes = true ∧ compareContent? a b = some .eq := by
  rw [compare?_eq, ← compareText_eq_iff]
  cases compareText a.name b.name <;> simp

theorem compare?_lt_iff : a.compare? b = some .lt ↔ a.name < b.name ∨
    a.name = b.name ∧ a.attributes.agrees b.attributes = true ∧
      compareContent? a b = some .lt := by
  rw [compare?_eq, ← compareText_eq_iff, ← compareText_lt_iff]
  cases compareText a.name b.name <;> simp

/-! ## Reversing -/

theorem compareNodes?_swap
    (h : ∀ a ∈ as, ∀ b ∈ bs, b.compare? a = (a.compare? b).map Ordering.swap) :
    compareNodes? bs as = (compareNodes? as bs).map Ordering.swap := by
  induction as generalizing bs with
  | nil => cases bs <;> rfl
  | cons a as ih =>
    cases bs with
    | nil => rfl
    | cons b bs =>
      rw [List.forall_mem_cons] at h
      have htail := ih fun a ha b hb => h.2 a ha b (List.mem_cons_of_mem _ hb)
      rw [compareNodes?_cons, compareNodes?_cons, h.1 b List.mem_cons_self]
      rcases a.compare? b with _ | _ | _ | _
      · rfl
      · rfl
      · exact htail
      · rfl

/-- Exchanging two trees of sound records reverses their order. -/
theorem compare?_swap (ha : a.Everywhere fun m => m.attributes.IsSound)
    (hb : b.Everywhere fun m => m.attributes.IsSound) :
    b.compare? a = (a.compare? b).map Ordering.swap := by
  induction ha generalizing b with
  | @intro a ha _ ih =>
    have hcontent : compareContent? b a = (compareContent? a b).map Ordering.swap := by
      unfold compareContent?
      cases a.text? with
      | some s =>
        cases b.text? with
        | some t => exact congrArg some (compareText_swap s t)
        | none => rfl
      | none =>
        cases b.text? with
        | some t => rfl
        | none => exact compareNodes?_swap fun d hd e he => ih d hd (hb.of_mem e he)
    rw [compare?_eq, compare?_eq, compareText_swap a.name, Attributes.agrees_comm hb.root ha,
      hcontent]
    cases compareText a.name b.name with
    | lt | gt => rfl
    | eq =>
      dsimp only [Ordering.swap]
      split_ifs <;> rfl

/-! ## Trees with one schema for each name -/

/-- A node is typed by a table of schemas if its record is sound and has the schema of its name. -/
structure IsTypedBy (schemas : String → Option Schema) (n : Node) : Prop where
  record : n.attributes.IsSound
  schema : n.attributes.schema? = schemas n.name

variable {schemas : String → Option Schema}

theorem agrees_congr_of_typed (ha : a.IsTypedBy schemas) (hb : b.IsTypedBy schemas)
    (hc : c.IsTypedBy schemas) (hab : a.name = b.name) (hac : a.name = c.name)
    (h : a.attributes.agrees b.attributes = true) :
    a.attributes.agrees c.attributes = b.attributes.agrees c.attributes := by
  refine Attributes.agrees_congr ha.record hb.record hc.record ?_ ?_ h
  · rw [ha.schema, hb.schema, hab]
  · rw [ha.schema, hc.schema, hac]

theorem compareNodes?_congr
    (h : ∀ a ∈ as, ∀ b ∈ bs, ∀ c ∈ cs, a.compare? b = some .eq → a.compare? c = b.compare? c)
    (heq : compareNodes? as bs = some .eq) : compareNodes? as cs = compareNodes? bs cs := by
  induction as generalizing bs cs with
  | nil =>
    cases bs with
    | nil => rfl
    | cons b bs => simp [compareNodes?, Outline.compareChildren?] at heq
  | cons a as ih =>
    cases bs with
    | nil => simp [compareNodes?, Outline.compareChildren?] at heq
    | cons b bs =>
      obtain ⟨hhead, htail⟩ := compareNodes?_cons_eq_iff.1 heq
      cases cs with
      | nil => rfl
      | cons c cs =>
        have hc : a.compare? c = b.compare? c :=
          h a List.mem_cons_self b List.mem_cons_self c List.mem_cons_self hhead
        have hcs : compareNodes? as cs = compareNodes? bs cs :=
          ih (fun a ha b hb c hc => h a (List.mem_cons_of_mem _ ha) b (List.mem_cons_of_mem _ hb) c
            (List.mem_cons_of_mem _ hc)) htail
        rw [compareNodes?_cons, compareNodes?_cons, hc, hcs]

/-- Equal trees compare alike with a third one. -/
theorem compare?_congr (ha : a.Everywhere (IsTypedBy schemas))
    (hb : b.Everywhere (IsTypedBy schemas)) (hc : c.Everywhere (IsTypedBy schemas))
    (heq : a.compare? b = some .eq) : a.compare? c = b.compare? c := by
  induction ha generalizing b c with
  | @intro a ha _ ih =>
    obtain ⟨hname, hagrees, heq⟩ := compare?_eq_iff.1 heq
    have hcontent : compareContent? a c = compareContent? b c := by
      rcases compareContent?_eq_some_iff.1 heq with ⟨s, t, hs, ht, hst⟩ | ⟨hs, ht, hns⟩
      · obtain rfl := compareText_eq_iff.1 hst
        rw [compareContent?_of_text hs, compareContent?_of_text ht]
      · rw [compareContent?_of_none hs, compareContent?_of_none ht,
          compareNodes?_congr (fun d hd e he f hf => ?_) hns]
        exact ih d hd (hb.of_mem e he) (hc.of_mem f hf)
    rw [compare?_eq, compare?_eq, hcontent, ← hname]
    cases horder : compareText a.name c.name with
    | lt | gt => rfl
    | eq =>
      rw [agrees_congr_of_typed ha hb.root hc.root hname (compareText_eq_iff.1 horder) hagrees]

theorem compare?_congr_right (ha : a.Everywhere (IsTypedBy schemas))
    (hb : b.Everywhere (IsTypedBy schemas)) (hc : c.Everywhere (IsTypedBy schemas))
    (heq : b.compare? c = some .eq) : a.compare? b = a.compare? c := by
  have hsound {n : Node} (h : n.Everywhere (IsTypedBy schemas)) :
      n.Everywhere fun m => m.attributes.IsSound := h.mono fun m hm => hm.record
  rw [compare?_swap (hsound hb) (hsound ha), compare?_swap (hsound hc) (hsound ha),
    compare?_congr hb hc ha heq]

theorem compareNodes?_trans (has : ∀ a ∈ as, a.Everywhere (IsTypedBy schemas))
    (hbs : ∀ b ∈ bs, b.Everywhere (IsTypedBy schemas))
    (hcs : ∀ c ∈ cs, c.Everywhere (IsTypedBy schemas))
    (h : ∀ a ∈ as, ∀ b ∈ bs, ∀ c ∈ cs, a.compare? b = some .lt → b.compare? c = some .lt →
      a.compare? c = some .lt)
    (hab : compareNodes? as bs = some .lt) (hbc : compareNodes? bs cs = some .lt) :
    compareNodes? as cs = some .lt := by
  induction as generalizing bs cs with
  | nil =>
    cases cs with
    | nil => cases bs <;> simp [compareNodes?, Outline.compareChildren?] at hbc
    | cons c cs => rfl
  | cons a as ih =>
    cases bs with
    | nil => simp [compareNodes?, Outline.compareChildren?] at hab
    | cons b bs =>
      cases cs with
      | nil => simp [compareNodes?, Outline.compareChildren?] at hbc
      | cons c cs =>
        rw [List.forall_mem_cons] at has hbs hcs
        rw [compareNodes?_cons_lt_iff] at hab hbc ⊢
        -- the first pair that is not equal is in `as` and `bs`, in `bs` and `cs`, or in both
        rcases hab with hab | ⟨hab, habs⟩
        · rcases hbc with hbc | ⟨hbc, -⟩
          · exact .inl (h a List.mem_cons_self b List.mem_cons_self c List.mem_cons_self hab hbc)
          · exact .inl (compare?_congr_right has.1 hbs.1 hcs.1 hbc ▸ hab)
        · have hac : a.compare? c = b.compare? c := compare?_congr has.1 hbs.1 hcs.1 hab
          rcases hbc with hbc | ⟨hbc, hbcs⟩
          · exact .inl (hac.trans hbc)
          · refine .inr ⟨hac.trans hbc, ih has.2 hbs.2 hcs.2 (fun a ha b hb c hc => ?_) habs hbcs⟩
            exact h a (List.mem_cons_of_mem _ ha) b (List.mem_cons_of_mem _ hb) c
              (List.mem_cons_of_mem _ hc)

theorem compare?_trans (ha : a.Everywhere (IsTypedBy schemas))
    (hb : b.Everywhere (IsTypedBy schemas)) (hc : c.Everywhere (IsTypedBy schemas))
    (hab : a.compare? b = some .lt) (hbc : b.compare? c = some .lt) : a.compare? c = some .lt := by
  induction ha generalizing b c with
  | @intro a ha hbelow ih =>
    rw [compare?_lt_iff] at hab hbc ⊢
    rcases hab with hab | ⟨hab, hagrees, hcontent⟩
    · rcases hbc with hbc | ⟨hbc, -, -⟩
      · exact .inl (hab.trans hbc)
      · exact .inl (hbc ▸ hab)
    · rcases hbc with hbc | ⟨hbc, hagrees', hcontent'⟩
      · exact .inl (hab ▸ hbc)
      · refine .inr ⟨hab.trans hbc, ?_, ?_⟩
        · rwa [agrees_congr_of_typed ha hb.root hc.root hab (hab.trans hbc) hagrees]
        · rw [compareContent?_eq_some_iff] at hcontent hcontent' ⊢
          rcases hcontent with ⟨s, t, hs, ht, hst⟩ | ⟨hs, ht, hns⟩
          · rcases hcontent' with ⟨t', u, ht', hu, htu⟩ | ⟨ht', -, -⟩
            · obtain rfl : t = t' := Option.some.inj (ht.symm.trans ht')
              rw [compareText_lt_iff] at hst htu
              exact .inl ⟨s, u, hs, hu, compareText_lt_iff.2 (hst.trans htu)⟩
            · simp [ht] at ht'
          · rcases hcontent' with ⟨t', u, ht', -, -⟩ | ⟨-, hu, hns'⟩
            · simp [ht] at ht'
            · refine .inr ⟨hs, hu, compareNodes?_trans hbelow hb.of_mem hc.of_mem ?_ hns hns'⟩
              exact fun d hd e he f hf => ih d hd (hb.of_mem e he) (hc.of_mem f hf)

/-! ## One schema for each name -/

/-- A node is in a tree: it is the root, or it is in the tree of a child. -/
inductive Within : Node → Node → Prop
  | root (n : Node) : Within n n
  | inside {m c n : Node} : c ∈ n.children → Within m c → Within m n

theorem Everywhere.of_within {P : Node → Prop} {m n : Node} (h : n.Everywhere P)
    (hm : m.Within n) : P m := by
  induction hm with
  | root => exact h.root
  | inside hc _ ih => exact ih (h.of_mem _ hc)

theorem Everywhere.mono_within {P Q : Node → Prop} {n : Node} (h : n.Everywhere P)
    (hQ : ∀ m, m.Within n → P m → Q m) : n.Everywhere Q := by
  induction h with
  | @intro n hn _ ih =>
    exact .intro (hQ n (.root n) hn) fun c hc => ih c hc fun m hm => hQ m (.inside hc hm)

/-- In some trees all nodes with one name have records of one schema, or all have open records. -/
def OneSchemaPerName (ts : List Node) : Prop :=
  ∀ t ∈ ts, ∀ u ∈ ts, ∀ m n : Node, m.Within t → n.Within u → m.name = n.name →
    m.attributes.schema? = n.attributes.schema?

/-- A schema, or none, is that of a node with a name in some trees. -/
def IsSchemaOf (ts : List Node) (name : String) (schema? : Option Schema) : Prop :=
  ∃ t ∈ ts, ∃ m : Node, m.Within t ∧ m.name = name ∧ m.attributes.schema? = schema?

/-- Built trees with one schema for each name are typed by a common table of schemas. -/
theorem OneSchemaPerName.exists_schemas {ts : List Node} (hts : ∀ t ∈ ts, t.Built)
    (h : OneSchemaPerName ts) : ∃ schemas, ∀ t ∈ ts, t.Everywhere (IsTypedBy schemas) := by
  refine ⟨fun name => Classical.epsilon (IsSchemaOf ts name), fun t ht => ?_⟩
  refine (hts t ht).everywhere.mono_within fun m hm hbuilt => ⟨hbuilt.isSound, ?_⟩
  have hexists : ∃ schema?, IsSchemaOf ts m.name schema? := ⟨_, t, ht, m, hm, rfl, rfl⟩
  obtain ⟨u, hu, n, hn, hname, hschema⟩ := Classical.epsilon_spec hexists
  exact (h t ht u hu m n hm hn hname.symm).trans hschema

theorem IsRead.type?_eq {n : Node} (h : n.IsRead .builtins) :
    n.type? = (Registry.builtins.create n.name .empty).type? := by
  cases hraw : n.isRaw with
  | false => exact (h.made hraw .empty).2.symm
  | true =>
    cases n with
    | text t =>
      have htype : t.type? = none := (isRaw_iff.1 hraw).2
      have hname : (Node.text t).name = "text-node" := by rw [name, TextNode.name, htype]
      rw [hname, type?, htype]
      decide +kernel
    | element | term | terms => simp [isRaw] at hraw

/-- The built-in types give one schema to each name. -/
theorem oneSchemaPerName_of_parse {ts : List Node} (h : ∀ t ∈ ts, ∃ s, Node.parse s = .ok t) :
    OneSchemaPerName ts := by
  have hread {t m : Node} (ht : t ∈ ts) (hm : m.Within t) : m.IsRead .builtins := by
    obtain ⟨s, hs⟩ := h t ht
    exact (everywhere_isRead Registry.hasUsualNames_builtins hs).2.of_within hm
  intro t ht u hu m n hm hn hname
  have hm := hread ht hm
  have hn := hread hu hn
  rw [hm.schema, hn.schema, hm.type?_eq, hn.type?_eq, hname]

/-! ## Coherence -/

/-- Comparing is coherent on all trees that can be built: a tree equals itself, exchanging two trees
reverses their order, and if all nodes with one name have records of one schema, as they have in
trees that were read, then equal trees compare alike and the order is transitive. -/
theorem compare?_coherent (a b c : Node) (ha : a.Built) (hb : b.Built) (hc : c.Built) :
    a.compare? a = some .eq ∧ b.compare? a = (a.compare? b).map Ordering.swap ∧
      (OneSchemaPerName [a, b, c] →
        (a.compare? b = some .eq → a.compare? c = b.compare? c) ∧
          (a.compare? b = some .lt → b.compare? c = some .lt → a.compare? c = some .lt)) ∧
      ∀ ts : List Node, (∀ t ∈ ts, ∃ s, Node.parse s = .ok t) → OneSchemaPerName ts := by
  have hsound {n : Node} (h : n.Built) : n.Everywhere fun m => m.attributes.IsSound :=
    h.everywhere.mono fun m hm => hm.isSound
  refine ⟨compare?_self (hsound ha), compare?_swap (hsound ha) (hsound hb), fun hschemas => ?_,
    fun ts => oneSchemaPerName_of_parse⟩
  obtain ⟨schemas, htyped⟩ := hschemas.exists_schemas (by simp [ha, hb, hc])
  simp only [List.forall_mem_cons] at htyped
  obtain ⟨hta, htb, htc, -⟩ := htyped
  exact ⟨compare?_congr hta htb htc, compare?_trans hta htb htc⟩

/-- Two trees that differ in the order of attributes only come before a third one alike. -/
theorem compare?_of_permuted_attributes :
    ∃ a b c, Node.parse "<a k='v' l='w'>x</a>" = .ok a ∧ Node.parse "<a l='w' k='v'>x</a>" = .ok b ∧
      Node.parse "<a k='v' l='w'>y</a>" = .ok c ∧ a.compare? b = some .eq ∧
        b.compare? c = some .lt ∧ a.compare? c = some .lt ∧ c.compare? a = some .gt := by
  have ha : Node.parse "<a k='v' l='w'>x</a>" =
      .ok (.element none "a" (.ofPairs [("k", "v"), ("l", "w")]) [.text (.raw "x")]) :=
    parse_of_scan (.element "a" [("k", "v"), ("l", "w")] [.text "x"])
      (show scan _ = ⟨[.start "a" [("k", "v"), ("l", "w")], .text "x", .close "a"], none⟩ by
        decide +kernel) rfl rfl (by rfl)
  have hb : Node.parse "<a l='w' k='v'>x</a>" =
      .ok (.element none "a" (.ofPairs [("l", "w"), ("k", "v")]) [.text (.raw "x")]) :=
    parse_of_scan (.element "a" [("l", "w"), ("k", "v")] [.text "x"])
      (show scan _ = ⟨[.start "a" [("l", "w"), ("k", "v")], .text "x", .close "a"], none⟩ by
        decide +kernel) rfl rfl (by rfl)
  have hc : Node.parse "<a k='v' l='w'>y</a>" =
      .ok (.element none "a" (.ofPairs [("k", "v"), ("l", "w")]) [.text (.raw "y")]) :=
    parse_of_scan (.element "a" [("k", "v"), ("l", "w")] [.text "y"])
      (show scan _ = ⟨[.start "a" [("k", "v"), ("l", "w")], .text "y", .close "a"], none⟩ by
        decide +kernel) rfl rfl (by rfl)
  obtain ⟨-, -, hcoherent, hparsed⟩ := compare?_coherent _ _ _ (.parse ha) (.parse hb) (.parse hc)
  obtain ⟨hcongr, -⟩ := hcoherent (hparsed _ (by
    simp only [List.forall_mem_cons]
    exact ⟨⟨_, ha⟩, ⟨_, hb⟩, ⟨_, hc⟩, fun t ht => absurd ht List.not_mem_nil⟩))
  have hac := compare?_coherent _ _ _ (.parse ha) (.parse hc) (.parse hb)
  have heq : (Node.element none "a" (.ofPairs [("k", "v"), ("l", "w")]) [.text (.raw "x")]).compare?
      (.element none "a" (.ofPairs [("l", "w"), ("k", "v")]) [.text (.raw "x")]) = some .eq := by
    decide
  have hlt : (Node.element none "a" (.ofPairs [("l", "w"), ("k", "v")]) [.text (.raw "x")]).compare?
      (.element none "a" (.ofPairs [("k", "v"), ("l", "w")]) [.text (.raw "y")]) = some .lt := by
    decide +kernel
  refine ⟨_, _, _, ha, hb, hc, heq, hlt, (hcongr heq).trans hlt, ?_⟩
  rw [hac.2.1, hcongr heq, hlt]
  rfl

end Node

end CitationLocale
