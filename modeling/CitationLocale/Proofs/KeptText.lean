import CitationLocale.Proofs.ContentModel
import CitationLocale.Proofs.NormalForm

/-!
# Text between elements

The elements in an element divide its character data into runs. In an element that may hold text
beside other elements each run is kept as one raw text in the gap where it stood, unless it is made
of white space only (`Markup.Item.gaps_node`). White space is meant here in the sense of Unicode
(`Node.keepsRuns_of_parse`): a run of no-break spaces, which are no white space of the markup, is
dropped (`Node.parse_drops_no_break_spaces`).
-/

namespace CitationLocale

open Markup Text

namespace Node

/-- The children of a node apart from raw text. -/
def branches (n : Node) : List Node :=
  n.children.filter fun c => !c.isRaw

/-- The raw text before, between and behind the other children of a node. -/
def gaps (n : Node) : List (List Node) :=
  n.children.splitOnP fun c => !c.isRaw

/-- The node at a path on which raw text is not counted. -/
def branchAt? : Node → List Nat → Option Node
  | n, [] => some n
  | n, k :: path => n.branches[k]?.bind fun c => branchAt? c path

end Node

namespace Markup.Item

/-- The element at a path: each number counts the elements in an element. -/
def at? : Item → List Nat → Option Item
  | i, [] => some i
  | i, k :: path => (elements i.content)[k]?.bind fun c => at? c path

/-- The runs of character data before, between and behind the elements in some content. -/
def runs (content : List Item) : List String :=
  (content.splitOnP isElement).map characterData

/-- Whether an element may hold text beside other elements. -/
def IsMixed (i : Item) : Prop :=
  i.name ∉ ["terms", "term", "single", "multiple"]

/-- A node keeps the runs of some content: each run with a character that counts is one raw text, in
the gap where the run stands. White space does not count; `isSpace` says what this is. -/
def KeepsRuns (isSpace : Char → Bool) (content : List Item) (n : Node) : Prop :=
  ∀ (k : Nat) (run : String), (runs content)[k]? = some run →
    (∃ c ∈ run.toList, isSpace c = false) → n.gaps[k]? = some [.text (.raw run)]

/-! ## The children of one element -/

theorem isRaw_node {i : Item} (h : i.isElement = true) : i.node.isRaw = false := by
  cases i with
  | element name attributes content =>
    have hraw := Registry.builtins.isRaw_create name (.ofPairs attributes)
    rw [node]
    cases hcreate : Registry.builtins.create name (.ofPairs attributes) with
    | element | term | terms => rfl
    | text t =>
      rw [hcreate] at hraw
      exact hraw
  | empty name attributes => rw [node]; exact Registry.isRaw_create _ _ _
  | text | aside => simp [isElement] at h

theorem isRaw_of_mem_runNodes {run : String} {c : Node} (h : c ∈ runNodes run) :
    c.isRaw = true := by
  obtain ⟨-, rfl⟩ := mem_runNodes.1 h
  rfl

theorem runs_text (s : String) (row : List Item) :
    runs (.text s :: row) = (runs row).modifyHead (s ++ ·) := by
  obtain ⟨front, later, h⟩ := List.exists_cons_of_ne_nil (List.splitOnP_ne_nil isElement row)
  simp [runs, List.splitOnP_cons_eq_if_modifyHead, h, isElement, characterData]

theorem runs_aside (row : List Item) : runs (.aside :: row) = runs row := by
  obtain ⟨front, later, h⟩ := List.exists_cons_of_ne_nil (List.splitOnP_ne_nil isElement row)
  simp [runs, List.splitOnP_cons_eq_if_modifyHead, h, isElement, characterData]

theorem runs_cons_of_isElement {i : Item} (h : i.isElement = true) (row : List Item) :
    runs (i :: row) = "" :: runs row := by
  simp [runs, List.splitOnP_cons_eq_if_modifyHead, h, characterData]

/-- The children of an element, divided at those that are built from elements; `run` is the text
read since the last element. -/
theorem splitOnP_childNodes (run : String) (row : List Item) :
    (childNodes run row).splitOnP (fun c => !c.isRaw) =
      ((runs row).modifyHead (run ++ ·)).map runNodes := by
  have hrun (run : String) : ∀ c ∈ runNodes run, (!c.isRaw) = false := by
    intro c hc
    rw [isRaw_of_mem_runNodes hc]
    rfl
  induction row generalizing run with
  | nil =>
    rw [childNodes, List.splitOnP_eq_singleton (hrun run)]
    simp [runs, characterData]
  | cons i row ih =>
    by_cases hi : i.isElement = true
    · have hnode : (!i.node.isRaw) = true := by rw [isRaw_node hi]; rfl
      have hempty : (runs row).modifyHead ("" ++ ·) = runs row := by
        cases runs row <;> simp
      rw [childNodes_cons_of_isElement hi,
        List.splitOnP_append_cons_of_forall_mem (hrun run) _ hnode, ih, hempty,
        runs_cons_of_isElement hi]
      simp
    · cases i with
      | element | empty => exact absurd rfl hi
      | text s =>
        rw [childNodes, ih, runs_text, List.modifyHead_modifyHead]
        simp [Function.comp_def, String.append_assoc]
      | aside => rw [childNodes, ih, runs_aside]

theorem filter_childNodes (run : String) (row : List Item) :
    (childNodes run row).filter (fun c => !c.isRaw) = (elements row).map node := by
  have hrun (run : String) : (runNodes run).filter (fun c => !c.isRaw) = [] := by
    rw [List.filter_eq_nil_iff]
    intro c hc
    simp [isRaw_of_mem_runNodes hc]
  induction row generalizing run with
  | nil => rw [childNodes, hrun]; rfl
  | cons i row ih =>
    by_cases hi : i.isElement = true
    · rw [childNodes_cons_of_isElement hi, List.filter_append, hrun, elements_cons_of_isElement hi,
        List.nil_append, List.filter_cons_of_pos (by simp [isRaw_node hi]), ih, List.map_cons]
    · rw [elements, List.filter_cons_of_neg hi]
      cases i with
      | element | empty => exact absurd rfl hi
      | text s => rw [childNodes, ih]; rfl
      | aside => rw [childNodes, ih]; rfl

theorem children_node {i : Item} (hi : i.isElement = true) (h : i.IsMixed) :
    i.node.children = childNodes "" i.content := by
  cases i with
  | element name attributes content =>
    have hname : name ∉ ["terms", "term", "single", "multiple"] := h
    obtain ⟨type?, attributes', hcreate⟩ := Registry.create_other (.ofPairs attributes) hname
    rw [node, hcreate]
    rfl
  | empty name attributes =>
    rw [node, Registry.children_create]
    simp [content, childNodes, runNodes, isBlank]
  | text | aside => simp [isElement] at hi

theorem branches_node {i : Item} (hi : i.isElement = true) (h : i.IsMixed) :
    i.node.branches = (elements i.content).map node := by
  rw [Node.branches, children_node hi h, filter_childNodes]

/-- Each run of an element that may hold text beside other elements is kept in its gap as one raw
text, or dropped if it is blank. -/
theorem gaps_node {i : Item} (hi : i.isElement = true) (h : i.IsMixed) :
    i.node.gaps = (runs i.content).map runNodes := by
  have hempty : (runs i.content).modifyHead ("" ++ ·) = runs i.content := by
    cases runs i.content <;> simp
  rw [Node.gaps, children_node hi h, splitOnP_childNodes, hempty]

/-! ## Elements at any depth -/

theorem isElement_of_at? {i e : Item} {path : List Nat} (hi : i.isElement = true)
    (h : i.at? path = some e) : e.isElement = true := by
  induction path generalizing i with
  | nil =>
    obtain rfl := Option.some.inj h
    exact hi
  | cons k path ih =>
    obtain ⟨c, hc, h⟩ := Option.bind_eq_some_iff.1 h
    exact ih (isElement_of_mem_elements (List.mem_of_getElem? hc)) h

theorem name_node {i : Item} (h : i.Obeys) (hi : i.isElement = true) : i.node.name = i.name :=
  (Node.name_eq_of_head (head_build _ (build_of_obeys h hi))).trans
    (Registry.name_create Registry.hasUsualNames_builtins _ _)

theorem Obeys.of_mem {i c : Item} (h : i.Obeys) (hc : c ∈ elements i.content) : c.Obeys := by
  cases h with
  | element _ hcontent => exact hcontent c (List.mem_filter.1 hc).1
  | empty | text | aside => exact absurd hc List.not_mem_nil

/-- In terms and term tables there are only elements that may not hold text beside others. -/
theorem not_isMixed_of_mem {i c : Item} (h : i.Obeys) (hi : ¬ i.IsMixed)
    (hc : c ∈ elements i.content) : ¬ c.IsMixed := by
  cases h with
  | @element name attributes content hallows _ =>
    rw [IsMixed, not_not] at hi ⊢
    simp only [List.mem_cons, List.not_mem_nil, or_false] at hi ⊢
    have hname : Item.name (.element name attributes content) = name := rfl
    rw [hname] at hi
    rcases hi with hterms | hterm | hform
    · exact .inr (.inl ((hallows.terms hterms).1 c hc))
    · exact .inr (.inr ((hallows.term hterm (List.ne_nil_of_mem hc)).1 c hc))
    · rw [Item.content, hallows.form hform] at hc
      exact absurd hc List.not_mem_nil
  | empty | text | aside => exact absurd hc List.not_mem_nil

theorem Obeys.of_at? {i e : Item} {path : List Nat} (h : i.Obeys) (he : i.at? path = some e) :
    e.Obeys := by
  induction path generalizing i with
  | nil =>
    obtain rfl := Option.some.inj he
    exact h
  | cons k path ih =>
    obtain ⟨c, hc, he⟩ := Option.bind_eq_some_iff.1 he
    exact ih (h.of_mem (List.mem_of_getElem? hc)) he

theorem not_isMixed_of_at? {i e : Item} {path : List Nat} (h : i.Obeys) (hi : ¬ i.IsMixed)
    (he : i.at? path = some e) : ¬ e.IsMixed := by
  induction path generalizing i with
  | nil =>
    obtain rfl := Option.some.inj he
    exact hi
  | cons k path ih =>
    obtain ⟨c, hc, he⟩ := Option.bind_eq_some_iff.1 he
    have hmem := List.mem_of_getElem? hc
    exact ih (h.of_mem hmem) (not_isMixed_of_mem h hi hmem) he

/-- Where an element that may hold text beside others stands in a document, its node stands in the
tree. -/
theorem branchAt?_node {i e : Item} {path : List Nat} (h : i.Obeys) (hi : i.isElement = true)
    (he : i.at? path = some e) (hmixed : e.IsMixed) : i.node.branchAt? path = some e.node := by
  induction path generalizing i with
  | nil =>
    obtain rfl := Option.some.inj he
    rfl
  | cons k path ih =>
    -- terms and term tables hold no such element, so that no step of the path leads through one
    have himixed : i.IsMixed := by
      by_contra hnot
      exact not_isMixed_of_at? h hnot he hmixed
    obtain ⟨c, hc, he⟩ := Option.bind_eq_some_iff.1 he
    have hmem := List.mem_of_getElem? hc
    rw [Node.branchAt?, branches_node hi himixed, List.getElem?_map, hc]
    exact ih (h.of_mem hmem) (isElement_of_mem_elements hmem) he

end Markup.Item

/-! ## Whole documents -/

namespace Node

/-- In a document that is read every element that may hold text beside other elements has its node
at the same place in the tree, where the same elements follow each other as in the document. Each
run of character data in it that is not made of white space only is kept in place as one raw text; a
run of white space, in the sense of Unicode, leaves nothing. -/
theorem keepsRuns_of_parse (s : String) (t : Node) (h : Node.parse s = .ok t) :
    ∃ row root, forest? (scan s).tokens = some row ∧ Item.elements row = [root] ∧
      ∀ path e, root.at? path = some e → e.IsMixed → ∃ n, t.branchAt? path = some n ∧
        n.name = e.name ∧ n.branches.map name = (Item.elements e.content).map Item.name ∧
        Item.KeepsRuns isWhite e.content n ∧
        ∀ (k : Nat) (run : String), (Item.runs e.content)[k]? = some run → isBlank run = true →
          n.gaps[k]? = some [] := by
  obtain ⟨-, row, root, hrow, hroot, hbuild⟩ := parseWith_eq_ok.1 h
  have hobeys := Item.obeys_of_build hbuild
  have hmem : root ∈ Item.elements row := by simp [hroot]
  have helement := Item.isElement_of_mem_elements hmem
  obtain rfl : root.node = t :=
    Except.ok.inj ((Item.build_of_obeys hobeys helement).symm.trans hbuild)
  refine ⟨row, root, hrow, hroot, fun path e he hmixed => ?_⟩
  have heobeys := hobeys.of_at? he
  have heelement := Item.isElement_of_at? helement he
  have hbranches : e.node.branches.map name = (Item.elements e.content).map Item.name := by
    rw [Item.branches_node heelement hmixed, List.map_map]
    exact List.map_congr_left fun c hc =>
      Item.name_node (heobeys.of_mem hc) (Item.isElement_of_mem_elements hc)
  have hgap {k : Nat} {run : String} (hrun : (Item.runs e.content)[k]? = some run) :
      e.node.gaps[k]? = some (Item.runNodes run) := by
    rw [Item.gaps_node heelement hmixed, List.getElem?_map, hrun]
    rfl
  refine ⟨e.node, Item.branchAt?_node hobeys helement he hmixed,
    Item.name_node heobeys heelement, hbranches, fun k run hrun hcounts => ?_,
    fun k run hrun hblank => ?_⟩
  · obtain ⟨c, hc, hwhite⟩ := hcounts
    have hnot : isBlank run = false := List.all_eq_false.2 ⟨c, hc, by simp [hwhite]⟩
    rw [hgap hrun, Item.runNodes, if_neg (by simp [hnot])]
  · rw [hgap hrun, Item.runNodes, if_pos hblank]

/-- A comment does not divide text, and a space behind the last element is dropped. -/
theorem keepsRuns_of_comment :
    ∃ t, Node.parse "<a>x<!--c-->y<b/> </a>" = .ok t ∧
      t.gaps[0]? = some [.text (.raw "xy")] ∧ t.gaps[1]? = some [] := by
  have hscan : scan "<a>x<!--c-->y<b/> </a>" =
      ⟨[.start "a" [], .text "x", .aside, .text "y", .empty "b" [], .text " ", .close "a"],
        none⟩ := by
    decide +kernel
  have hrow : forest? (scan "<a>x<!--c-->y<b/> </a>").tokens =
      some [.element "a" [] [.text "x", .aside, .text "y", .empty "b" [], .text " "]] := by
    rw [hscan]
    rfl
  have hbuild : (Item.element "a" []
      [.text "x", .aside, .text "y", .empty "b" [], .text " "]).build .builtins =
      .ok (.element none "a" .empty [.text (.raw "xy"), .element none "b" .empty []]) := by
    rw [Item.build]
    simp only [Item.fill, Item.addTo]
    rfl
  have hparse := parseWith_of_forest (r := .builtins) (by rw [hscan]) hrow rfl
  rw [hbuild] at hparse
  obtain ⟨row, root, hrow', hroot, hkept⟩ := keepsRuns_of_parse _ _ hparse
  obtain rfl := Option.some.inj (hrow.symm.trans hrow')
  obtain rfl := List.head_eq_of_cons_eq hroot
  obtain ⟨n, hn, -, -, hkeeps, hdrops⟩ :=
    hkept [] _ rfl (by simp [Item.IsMixed, Item.name, Item.start])
  obtain rfl := Option.some.inj hn
  exact ⟨_, hparse, hkeeps 0 "xy" rfl ⟨'x', by simp, by decide⟩, hdrops 1 " " rfl rfl⟩

/-- No-break spaces are no white space of the markup, and yet they are not kept. -/
theorem parse_drops_no_break_spaces :
    Node.parse "<a>\u00A0</a>" = .ok (.element none "a" .empty []) ∧
      forest? (scan "<a>\u00A0</a>").tokens = some [.element "a" [] [.text "\u00A0"]] ∧
      (Item.element "a" [] [.text "\u00A0"]).IsMixed ∧
      ¬ Item.KeepsRuns isMarkupSpace [.text "\u00A0"] (.element none "a" .empty []) := by
  have hscan : scan "<a>\u00A0</a>" = ⟨[.start "a" [], .text "\u00A0", .close "a"], none⟩ := by
    decide +kernel
  have hrow : forest? (scan "<a>\u00A0</a>").tokens =
      some [.element "a" [] [.text "\u00A0"]] := by
    rw [hscan]
    rfl
  refine ⟨?_, hrow, by simp [Item.IsMixed, Item.name, Item.start], fun hkeeps => ?_⟩
  · exact parseWith_of_forest (r := .builtins) (by rw [hscan]) hrow rfl
  · have hgap := hkeeps 0 "\u00A0" rfl ⟨'\u00A0', by simp, by decide⟩
    simp [gaps, children] at hgap

end Node

end CitationLocale
