import CitationLocale.Proofs.InPlace

/-!
# Text that arrives in chunks

Character data may be handed to a node in one piece or in several. The first of two texts changes a
node only in such a way that the second one is taken, or refused, as it would be behind the first
(`Node.pushText_append`, `NodeDraft.run_pushText_append`). So chunks, however the text is cut, do
what the whole text does, in place as well (`Node.pushText_chunks`).
-/

namespace CitationLocale

open Text

namespace Node

/-! ## Raw text at the end of some children -/

theorem pushRaw_of_raw {t : TextNode} (ht : t.isRaw = true) (ns : List Node) (s : String) :
    pushRaw s (ns ++ [.text t]) = ns ++ [.text (t.push s)] := by
  induction ns with
  | nil => exact if_pos ht
  | cons n ns ih =>
    rw [List.cons_append, List.cons_append, ← ih]
    cases ns <;> simp [pushRaw]

/-- Children end with raw text or not. -/
theorem getLast?_raw_cases (ns : List Node) : (∀ n ∈ ns.getLast?, n.isRaw = false) ∨
    ∃ before t, t.isRaw = true ∧ ns = before ++ [.text t] := by
  rcases ns.eq_nil_or_concat with rfl | ⟨before, n, rfl⟩
  · exact .inl fun n hn => by simp at hn
  · rw [List.concat_eq_append]
    cases hraw : n.isRaw with
    | false => exact .inl fun m hm => by simp_all
    | true =>
      cases n with
      | text t => exact .inr ⟨before, t, hraw, rfl⟩
      | element | term | terms => simp [isRaw] at hraw

/-- Raw text that was added takes further text. -/
theorem pushRaw_append (s s' : String) (ns : List Node) :
    pushRaw (s ++ s') ns = pushRaw s' (pushRaw s ns) := by
  rcases getLast?_raw_cases ns with hlast | ⟨before, t, ht, rfl⟩
  · rw [Markup.Item.pushRaw_of_not_raw hlast, Markup.Item.pushRaw_of_not_raw hlast,
      pushRaw_of_raw rfl]
    rfl
  · have ht' : (t.push s).isRaw = true := ht
    rw [pushRaw_of_raw ht, pushRaw_of_raw ht, pushRaw_of_raw ht']
    simp [TextNode.push, String.append_assoc]

/-- Text makes a child of its own just if it comes behind no raw text. -/
theorem countP_isRaw_pushRaw (s : String) (ns : List Node) : (pushRaw s ns).countP isRaw =
    ns.countP isRaw + if ∀ n ∈ ns.getLast?, n.isRaw = false then 1 else 0 := by
  rcases getLast?_raw_cases ns with hlast | ⟨before, t, ht, rfl⟩
  · rw [Markup.Item.pushRaw_of_not_raw hlast, if_pos hlast, List.countP_append]
    rfl
  · have ht' : (t.push s).isRaw = true := ht
    rw [pushRaw_of_raw ht]
    simp [isRaw, ht, ht']

end Node

/-! ## Two texts -/

namespace Term

variable {t : Term}

theorem pushText_of_hasForms (h : t.hasForms = true) (s : String) :
    t.pushText s = if isBlank s then .ok t else .error (.invalidChild "term" "text") := by
  simp [pushText_eq, hasRoom, put, h]

theorem pushText_of_not_hasForms (h : t.hasForms = false) (s : String) :
    t.pushText s = .ok (t.setText (t.text?.getD "" ++ s)) := by
  simp [pushText_eq, hasRoom, put, h]

theorem pushText_append (t : Term) (s s' : String) :
    t.pushText (s ++ s') = t.pushText s >>= fun u => u.pushText s' := by
  cases hforms : t.hasForms with
  | true =>
    rw [pushText_of_hasForms hforms, pushText_of_hasForms hforms, isBlank_append]
    cases hs : isBlank s with
    | true => exact (pushText_of_hasForms hforms s').symm
    | false => rfl
  | false =>
    have hset (s : String) : (t.setText s).hasForms = false := rfl
    rw [pushText_of_not_hasForms hforms, pushText_of_not_hasForms hforms, Result.ok_bind,
      pushText_of_not_hasForms (hset _), ← String.append_assoc]
    rfl

end Term

/-- A node takes two texts, one after the other, just if it takes them joined, and is then the same
node. -/
theorem Node.pushText_append (n : Node) (s s' : String) :
    n.pushText (s ++ s') = n.pushText s >>= fun m => m.pushText s' := by
  cases n with
  | element type? name attributes children =>
    rw [pushText, pushRaw_append]
    rfl
  | text t => simp [pushText, TextNode.push, String.append_assoc]
  | term t =>
    rw [pushText, Term.pushText_append, pushText]
    cases t.pushText s <;> rfl
  | terms table =>
    rw [pushText, isBlank_append, pushText]
    cases isBlank s <;> rfl

/-! ## Two texts in place -/

theorem Editing.run_bind_congr {σ : Type} {x y : Editing σ Unit} {s : σ}
    (h : x.run.run s = y.run.run s) (z : Editing σ Unit) :
    (do x; z).run.run s = (do y; z).run.run s := by
  rw [ExceptT.run_bind, ExceptT.run_bind, StateT.run_bind, StateT.run_bind, h]

/-- Where flat text and forms stand together, text is appended to the flat text. -/
theorem TermDraft.run_pushText_append (d : TermDraft) (s s' : String) :
    (pushText (s ++ s')).run.run d = (do pushText s; pushText s').run.run d := by
  have hs := run_pushText d s
  rw [run_pushText]
  cases hstrict : d.hasForms && d.text?.isNone with
  | true =>
    rw [hstrict] at hs
    rw [isBlank_append]
    cases hblank : isBlank s with
    | true =>
      rw [hblank] at hs
      rw [Editing.run_bind_of_ok _ hs, run_pushText, hstrict]
      rfl
    | false =>
      rw [hblank] at hs
      rw [Editing.run_bind_of_error _ hs]
      rfl
  | false =>
    rw [hstrict] at hs
    rw [Editing.run_bind_of_ok _ hs, run_pushText]
    simp [String.append_assoc]

namespace NodeDraft

/-- Appends text in place. -/
def pushText (s : String) : Editing NodeDraft Unit :=
  add (.text s)

theorem run_pushText_term (d : TermDraft) (s : String) : (pushText s).run.run (term d) =
    (((TermDraft.pushText s).run.run d).1, term ((TermDraft.pushText s).run.run d).2) :=
  run_onTerm (TermDraft.add (.text s)) d

/-- In place the first of two texts leaves what the second one needs, whatever is stored. -/
theorem run_pushText_append (p : NodeDraft) (s s' : String) :
    (pushText (s ++ s')).run.run p = (do pushText s; pushText s').run.run p := by
  cases p with
  | element type? name attributes children =>
    show (Except.ok (), element type? name attributes (Node.pushRaw (s ++ s') children)) =
      (Except.ok (), element type? name attributes (Node.pushRaw s' (Node.pushRaw s children)))
    rw [Node.pushRaw_append]
  | text t =>
    show (Except.ok (), text (t.push (s ++ s'))) = (Except.ok (), text ((t.push s).push s'))
    simp [TextNode.push, String.append_assoc]
  | terms table =>
    have hs : (pushText s).run.run (terms table) = _ := run_add_text_terms table s
    have hboth : (pushText (s ++ s')).run.run (terms table) = _ :=
      run_add_text_terms table (s ++ s')
    rw [hboth, isBlank_append]
    cases hblank : isBlank s with
    | true =>
      rw [hblank] at hs
      exact ((Editing.run_bind_of_ok _ hs).trans (run_add_text_terms table s')).symm
    | false =>
      rw [hblank] at hs
      exact (Editing.run_bind_of_error _ hs).symm
  | term d =>
    have hs := run_pushText_term d s
    rw [run_pushText_term, TermDraft.run_pushText_append]
    rcases hrun : (TermDraft.pushText s).run.run d with ⟨_ | ⟨⟩, d'⟩
    · rw [hrun] at hs
      rw [Editing.run_bind_of_error _ hrun, Editing.run_bind_of_error _ hs]
    · rw [hrun] at hs
      rw [Editing.run_bind_of_ok _ hrun, Editing.run_bind_of_ok _ hs, run_pushText_term]

end NodeDraft

/-! ## Chunks -/

/-- The first two chunks can be joined. -/
theorem join_cons_cons (s s' : String) (rest : List String) :
    String.join (s :: s' :: rest) = String.join ((s ++ s') :: rest) := by
  simp [String.append_assoc]

theorem Node.foldlM_pushText (n : Node) (s : String) (rest : List String) :
    (s :: rest).foldlM Node.pushText n = n.pushText (String.join (s :: rest)) := by
  induction rest generalizing s with
  | nil =>
    rw [List.foldlM_cons, String.join_cons, String.join_nil, String.append_empty]
    exact bind_pure _
  | cons s' rest ih =>
    rw [join_cons_cons, ← ih, List.foldlM_cons, List.foldlM_cons, pushText_append, bind_assoc]
    rfl

theorem NodeDraft.run_forM_pushText (p : NodeDraft) (s : String) (rest : List String) :
    ((s :: rest).forM pushText).run.run p = (pushText (String.join (s :: rest))).run.run p := by
  induction rest generalizing s with
  | nil =>
    have hlast : [s].forM pushText = pushText s := bind_pure_unit
    rw [hlast, String.join_cons, String.join_nil, String.append_empty]
  | cons s' rest ih =>
    have hassoc : (s :: s' :: rest).forM pushText =
        (do (do pushText s; pushText s'); rest.forM pushText) := (bind_assoc ..).symm
    rw [join_cons_cons, ← ih, hassoc]
    exact Editing.run_bind_congr (run_pushText_append p s s').symm _

theorem isBlank_join (chunks : List String) :
    isBlank (String.join chunks) = true ↔ ∀ chunk ∈ chunks, isBlank chunk = true := by
  induction chunks with
  | nil => simp [isBlank]
  | cons chunk chunks ih => simp [isBlank_append, ih]

namespace Node

variable {n m : Node} {s : String}

theorem pushText_eq_ok_iff :
    (∃ m, n.pushText s = .ok m) ↔ (n.RefusesText → isBlank s = true) := by
  have herror : (∃ e, n.pushText s = .error e) ↔ isBlank s = false ∧ n.RefusesText :=
    pushText_eq_error_iff
  cases hpush : n.pushText s with
  | ok m =>
    have hnot : ¬ (isBlank s = false ∧ n.RefusesText) := by
      rw [← herror]
      simp [hpush]
    have hblank : n.RefusesText → isBlank s = true := fun hrefuses =>
      Bool.of_not_eq_false fun hblank => hnot ⟨hblank, hrefuses⟩
    exact ⟨fun _ => hblank, fun _ => ⟨m, rfl⟩⟩
  | error e =>
    obtain ⟨hblank, hrefuses⟩ := herror.1 ⟨e, hpush⟩
    simp [hblank, hrefuses]

/-- Raw text stands in elements only. -/
theorem countP_isRaw_children (h : n.kind ≠ .element) : n.children.countP isRaw = 0 := by
  rw [List.countP_eq_zero]
  cases n with
  | element => exact absurd rfl h
  | text => simp [children]
  | terms table => simp [children, isRaw]
  | term t =>
    intro c hc
    obtain ⟨form, hform, rfl⟩ := List.mem_map.1 hc
    obtain ⟨s, rfl | rfl⟩ := Term.mem_formNodes hform <;> exact Bool.false_ne_true

theorem countP_children_pushText (h : n.pushText s = .ok m) :
    m.children.countP isRaw = n.children.countP isRaw +
      if n.kind = .element ∧ ∀ c ∈ n.children.getLast?, c.isRaw = false then 1 else 0 := by
  by_cases hkind : n.kind = .element
  · cases n with
    | element type? name attributes ns =>
      obtain rfl := Except.ok.inj h
      simp only [hkind, true_and]
      exact countP_isRaw_pushRaw s ns
    | text | term | terms => simp [kind] at hkind
  · have hkind' : m.kind ≠ .element := by
      rwa [kind_eq_of_head (head_pushText h)]
    rw [countP_isRaw_children hkind, countP_isRaw_children hkind', if_neg fun h => hkind h.1]

/-- However a text is cut into chunks, pushing them one after the other ends as pushing the whole
text does, with the same node or the same error. A node takes the chunks just if it refuses no text
or all of them are blank, and they make at most one more child, of raw text, at the end of an
element that does not end with raw text. In place, whatever is stored, the two leave the same
behind. -/
theorem pushText_chunks (s : String) (rest : List String) :
    (∀ n : Node, (s :: rest).foldlM pushText n = n.pushText (String.join (s :: rest))) ∧
      (∀ n : Node, (∃ m, (s :: rest).foldlM pushText n = .ok m) ↔
        (n.RefusesText → ∀ chunk ∈ s :: rest, isBlank chunk = true)) ∧
      (∀ n m : Node, (s :: rest).foldlM pushText n = .ok m →
        m.children.countP isRaw = n.children.countP isRaw +
          if n.kind = .element ∧ ∀ c ∈ n.children.getLast?, c.isRaw = false then 1 else 0) ∧
      ∀ p : NodeDraft, ((s :: rest).forM NodeDraft.pushText).run.run p =
        (NodeDraft.pushText (String.join (s :: rest))).run.run p := by
  refine ⟨fun n => n.foldlM_pushText s rest, fun n => ?_, fun n m h => ?_,
    fun p => p.run_forM_pushText s rest⟩
  · rw [foldlM_pushText, pushText_eq_ok_iff, isBlank_join]
  · rw [foldlM_pushText] at h
    exact countP_children_pushText h

end Node

end CitationLocale
