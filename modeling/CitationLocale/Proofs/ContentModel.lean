import Mathlib.Data.Set.List
import CitationLocale.Proofs.Filling

/-!
# The content model of locale documents

Which documents are read with the built-in node types, and which trees they denote. A rule says
what an element may contain (`Item.Allows`); a document is read just when every element in it obeys
the rule, and then its tree is the one that `Item.node` describes by recursion over the items.
-/

namespace CitationLocale

open Markup Text

/-! ## The built-in names -/

namespace Registry

theorem types_builtins : builtins.types = [.builtin .locale, .builtin .styleOptions,
    .builtin .terms, .builtin .term, .builtin .single, .builtin .multiple] := by
  decide

theorem lookup?_builtins : builtins.lookup? "terms" = some (.builtin .terms) ∧
    builtins.lookup? "term" = some (.builtin .term) ∧
    builtins.lookup? "single" = some (.builtin .single) ∧
    builtins.lookup? "multiple" = some (.builtin .multiple) := by
  decide +kernel

theorem name_single : (NodeType.builtin .single).name = "single" := by decide +kernel

theorem name_multiple : (NodeType.builtin .multiple).name = "multiple" := by decide +kernel

variable (supplied : Attributes)

theorem create_terms : builtins.create "terms" supplied = .terms .empty := by
  rw [create_eq, lookup?_builtins.1]
  rfl

theorem create_term : builtins.create "term" supplied = .term (.create supplied) := by
  rw [create_eq, lookup?_builtins.2.1]
  rfl

theorem create_single :
    builtins.create "single" supplied = .text (.typed (.builtin .single) supplied "") := by
  rw [create_eq, lookup?_builtins.2.2.1]
  rfl

theorem create_multiple :
    builtins.create "multiple" supplied = .text (.typed (.builtin .multiple) supplied "") := by
  rw [create_eq, lookup?_builtins.2.2.2]
  rfl

/-- All other names make elements. -/
theorem create_other {name : String} (h : name ∉ ["terms", "term", "single", "multiple"]) :
    ∃ type? attributes, builtins.create name supplied = .element type? name attributes [] := by
  rw [create_eq]
  cases hlookup : builtins.lookup? name with
  | none => exact ⟨none, supplied, rfl⟩
  | some t =>
    have hmem : t ∈ builtins.types := List.mem_of_find?_eq_some hlookup
    have hname : t.name = name := name_of_lookup? hlookup
    rw [types_builtins] at hmem
    simp only [List.mem_cons, List.not_mem_nil, or_false, not_or] at hmem h
    rcases hmem with rfl | rfl | rfl | rfl | rfl | rfl
    · exact ⟨_, _, rfl⟩
    · exact ⟨_, _, rfl⟩
    · exact absurd hname.symm h.1
    · exact absurd hname.symm h.2.1
    · exact absurd (hname.symm.trans name_single) h.2.2.1
    · exact absurd (hname.symm.trans name_multiple) h.2.2.2

theorem kind_create (name : String) : (builtins.create name supplied).kind =
    if name = "terms" then .terms else if name = "term" then .term
    else if name = "single" ∨ name = "multiple" then .text else .element := by
  split_ifs with hterms hterm hform
  · rw [hterms, create_terms]; rfl
  · rw [hterm, create_term]; rfl
  · rcases hform with rfl | rfl
    · rw [create_single]; rfl
    · rw [create_multiple]; rfl
  · have hother : name ∉ ["terms", "term", "single", "multiple"] := by
      simpa [hterms, hterm] using hform
    obtain ⟨type?, attributes, h⟩ := create_other supplied hother
    rw [h]; rfl

end Registry

namespace Markup.Item

/-! ## The rule -/

/-- What an element with a name may contain. A term table contains terms; a term contains text, or
its forms and no other elements; a form contains no elements. Beside terms and forms there is only
white space. -/
structure Allows (name : String) (content : List Item) : Prop where
  terms : name = "terms" →
    (∀ c ∈ elements content, c.name = "term") ∧ isBlank (characterData content) = true
  term : name = "term" → elements content ≠ [] →
    (∀ c ∈ elements content, c.name = "single" ∨ c.name = "multiple") ∧
      isBlank (characterData content) = true
  form : name = "single" ∨ name = "multiple" → elements content = []

/-- Every element in an item contains what it may. -/
inductive Obeys : Item → Prop
  | element {name : String} {attributes : List (String × String)} {content : List Item} :
      Allows name content → (∀ c ∈ content, Obeys c) → Obeys (.element name attributes content)
  | empty (name : String) (attributes : List (String × String)) : Obeys (.empty name attributes)
  | text (content : String) : Obeys (.text content)
  | aside : Obeys .aside

/-! ## The tree of a document -/

/-- The text of the last form with a name. -/
def lastForm (name : String) : List Item → Option String
  | [] => none
  | i :: row =>
    (lastForm name row).or
      (if i.isElement && i.name == name then some (characterData i.content) else none)

/-- The content of a term that does not close itself: its forms, or its text if there are no
elements in it. -/
def termContent (content : List Item) : TermContent :=
  if (elements content).isEmpty then .flat (characterData content)
  else
    .forms ((lastForm "single" content).map (.ofText .single))
      ((lastForm "multiple" content).map (.ofText .multiple))

mutual

/-- The node of an element: what is created for its name and attributes, and in it what the element
contains. -/
def node : Item → Node
  | .element name attributes content =>
    match Registry.builtins.create name (.ofPairs attributes) with
    | .element type? name attributes _ => .element type? name attributes (childNodes "" content)
    | .text t => .text { t with text := characterData content }
    | .term t => .term { t with content := termContent content }
    | .terms table =>
      .terms { table with terms := (childNodes "" content).filterMap Node.asTerm? }
  | .empty name attributes => Registry.builtins.create name (.ofPairs attributes)
  | .text content => .text (.raw content)
  | .aside => .text (.raw "")

/-- The nodes of the elements in some content, in order, and between them each run of text that is
not blank; `run` is the text read since the last element. -/
def childNodes (run : String) : List Item → List Node
  | [] => runNodes run
  | .text s :: row => childNodes (run ++ s) row
  | .aside :: row => childNodes run row
  | .element name attributes content :: row =>
    runNodes run ++ node (.element name attributes content) :: childNodes "" row
  | .empty name attributes :: row =>
    runNodes run ++ node (.empty name attributes) :: childNodes "" row

end

theorem childNodes_cons_of_isElement {i : Item} (h : i.isElement = true) (run : String)
    (row : List Item) :
    childNodes run (i :: row) = runNodes run ++ i.node :: childNodes "" row := by
  cases i with
  | element | empty => rw [childNodes]
  | text | aside => simp [isElement] at h

/-- The children of an element are those that its content stands for. -/
theorem childrenOf_childNodes {row : List Item} (run : String)
    (h : ∀ c ∈ elements row, c.build .builtins = .ok c.node) :
    ChildrenOf .builtins run row (childNodes run row) := by
  induction row generalizing run with
  | nil => rw [childNodes]; exact .nil run
  | cons i row ih =>
    by_cases hi : i.isElement = true
    · rw [elements_cons_of_isElement hi, List.forall_mem_cons] at h
      rw [childNodes_cons_of_isElement hi]
      exact .element hi h.1 (ih "" h.2)
    · rw [elements, List.filter_cons_of_neg hi] at h
      cases i with
      | element | empty => exact absurd rfl hi
      | text s => rw [childNodes]; exact .text (ih _ h)
      | aside => rw [childNodes]; exact .aside (ih run h)

/-- Where all text is blank the children are the nodes of the elements. -/
theorem childNodes_of_isBlank {row : List Item} {run : String}
    (h : isBlank (run ++ characterData row) = true) :
    childNodes run row = (elements row).map node := by
  induction row generalizing run with
  | nil =>
    rw [childNodes, runNodes, if_pos (by simpa [characterData] using h)]
    rfl
  | cons i row ih =>
    by_cases hi : i.isElement = true
    · rw [characterData_cons_of_isElement hi, isBlank_append, Bool.and_eq_true] at h
      rw [childNodes_cons_of_isElement hi, runNodes, if_pos h.1, elements_cons_of_isElement hi,
        ih (by simpa using h.2)]
      rfl
    · rw [elements, List.filter_cons_of_neg hi]
      cases i with
      | element | empty => exact absurd rfl hi
      | text s =>
        rw [characterData, ← String.append_assoc] at h
        rw [childNodes]
        exact ih h
      | aside =>
        rw [childNodes]
        exact ih h

/-! ## Obedient documents are read -/

theorem node_of_term {i : Item} (hi : i.isElement = true) (h : i.name = "term") :
    ∃ t : Term, i.node = .term t := by
  cases i with
  | element name attributes content =>
    obtain rfl : name = "term" := h
    rw [node, Registry.create_term]
    exact ⟨_, rfl⟩
  | empty name attributes =>
    obtain rfl : name = "term" := h
    rw [node, Registry.create_term]
    exact ⟨_, rfl⟩
  | text | aside => simp [isElement] at hi

/-- The type of forms with a name. -/
def formType (name : String) : Builtin :=
  if name = "single" then .single else .multiple

/-- An element with the name of a form is a form with its character data as text. -/
theorem node_of_form {i : Item} (hi : i.isElement = true)
    (h : i.name = "single" ∨ i.name = "multiple") :
    ∃ supplied, i.node =
      .text (.typed (.builtin (formType i.name)) supplied (characterData i.content)) := by
  cases i with
  | element name attributes content =>
    obtain rfl | rfl : name = "single" ∨ name = "multiple" := h
    · rw [node, Registry.create_single]
      exact ⟨_, rfl⟩
    · rw [node, Registry.create_multiple]
      exact ⟨_, rfl⟩
  | empty name attributes =>
    obtain rfl | rfl : name = "single" ∨ name = "multiple" := h
    · rw [node, Registry.create_single]
      exact ⟨_, rfl⟩
    · rw [node, Registry.create_multiple]
      exact ⟨_, rfl⟩
  | text | aside => simp [isElement] at hi

/-- Setting all forms in some content one after the other leaves the last one of each name. -/
theorem foldl_withForm {row : List Item} {forms : List TextNode}
    (hforms : (elements row).map node = forms.map .text)
    (hnames : ∀ c ∈ elements row, c.name = "single" ∨ c.name = "multiple") {t : Term}
    {s? m? : Option FormNode} (ht : t.content = .forms s? m?) :
    forms.foldl Term.withForm t =
      ⟨t.attributes, .forms (((lastForm "single" row).map (.ofText .single)).or s?)
        (((lastForm "multiple" row).map (.ofText .multiple)).or m?)⟩ := by
  induction row generalizing forms t s? m? with
  | nil =>
    obtain rfl := List.map_eq_nil_iff.1 hforms.symm
    rw [lastForm, lastForm, Option.map_none, Option.map_none, Option.none_or, Option.none_or, ← ht]
    rfl
  | cons i row ih =>
    by_cases hi : i.isElement = true
    · rw [elements_cons_of_isElement hi] at hforms hnames
      rw [List.forall_mem_cons] at hnames
      obtain ⟨form, forms, rfl, hform, hrest⟩ := List.map_eq_cons_iff.1 hforms.symm
      obtain ⟨supplied, hnode⟩ := node_of_form hi hnames.1
      obtain rfl := Node.text.inj (hform.trans hnode)
      rw [List.foldl_cons]
      rcases hnames.1 with hname | hname
      · have hset : t.withForm (.typed (.builtin (formType i.name)) supplied
            (characterData i.content)) = t.setSingle (characterData i.content) := by
          rw [hname, Term.setSingle, ← FormNode.ofNode_typed rfl supplied]
          rfl
        rw [hset, ih hrest.symm hnames.2 rfl]
        simp [lastForm, hi, hname, Term.setSingle, Term.putSingle, Term.multipleForm?, ht]
      · have hset : t.withForm (.typed (.builtin (formType i.name)) supplied
            (characterData i.content)) = t.setMultiple (characterData i.content) := by
          rw [hname, Term.setMultiple, ← FormNode.ofNode_typed rfl supplied]
          rfl
        rw [hset, ih hrest.symm hnames.2 rfl]
        simp [lastForm, hi, hname, Term.setMultiple, Term.putMultiple, Term.singleForm?, ht]
    · rw [elements, List.filter_cons_of_neg hi] at hforms hnames
      rw [ih hforms hnames ht]
      simp [lastForm, hi]

/-- Elements with the name of a term are terms. -/
theorem exists_terms {content : List Item} (hnames : ∀ c ∈ elements content, c.name = "term") :
    ∃ ts : List Term, ts.map .term = (elements content).map node := by
  have h : (elements content).map node ∈ Set.range (List.map Node.term) := by
    rw [Set.range_list_map]
    intro n hn
    obtain ⟨c, hc, rfl⟩ := List.mem_map.1 hn
    obtain ⟨t, ht⟩ := node_of_term (List.mem_filter.1 hc).2 (hnames c hc)
    exact ⟨t, ht.symm⟩
  exact h

/-- Elements with the names of forms are forms. -/
theorem exists_forms {content : List Item}
    (hnames : ∀ c ∈ elements content, c.name = "single" ∨ c.name = "multiple") :
    ∃ forms : List TextNode, forms.map .text = (elements content).map node ∧
      ∀ form ∈ forms, form.IsForm := by
  have hform : ∀ c ∈ elements content, ∃ form : TextNode, c.node = .text form ∧ form.IsForm := by
    intro c hc
    obtain ⟨supplied, hnode⟩ := node_of_form (List.mem_filter.1 hc).2 (hnames c hc)
    refine ⟨_, hnode, ?_⟩
    rcases hnames c hc with hname | hname
    · rw [hname]
      exact .inl rfl
    · rw [hname]
      exact .inr rfl
  have h : (elements content).map node ∈ Set.range (List.map Node.text) := by
    rw [Set.range_list_map]
    intro n hn
    obtain ⟨c, hc, rfl⟩ := List.mem_map.1 hn
    obtain ⟨form, hnode, -⟩ := hform c hc
    exact ⟨form, hnode.symm⟩
  obtain ⟨forms, hforms⟩ := h
  refine ⟨forms, hforms, fun form hmem => ?_⟩
  have hmem : Node.text form ∈ (elements content).map node := by
    rw [← hforms]
    exact List.mem_map_of_mem hmem
  obtain ⟨c, hc, hnode⟩ := List.mem_map.1 hmem
  obtain ⟨form', hnode', hform'⟩ := hform c hc
  obtain rfl := Node.text.inj (hnode.symm.trans hnode')
  exact hform'

section

variable {name : String} {attributes : List (String × String)} {content : List Item}
  (hallows : Allows name content) (hbuild : ∀ c ∈ elements content, c.build .builtins = .ok c.node)

include hbuild in
theorem map_build_elements {α : Type} {f : α → Node} {as : List α}
    (h : as.map f = (elements content).map node) :
    (elements content).map (build .builtins) = as.map fun a => .ok (f a) := by
  calc (elements content).map (build .builtins)
      = (elements content).map fun c => .ok c.node := List.map_congr_left hbuild
    _ = ((elements content).map node).map .ok := by rw [List.map_map]; rfl
    _ = as.map fun a => .ok (f a) := by rw [← h, List.map_map]; rfl

include hallows hbuild in
theorem fill_terms_of_allows (hname : name = "terms") :
    (fill .builtins content ⟨.terms .empty, ""⟩ >>= OpenNode.finish) =
      .ok (.terms (.ofTerms ((childNodes "" content).filterMap Node.asTerm?))) := by
  obtain ⟨hnames, hblank⟩ := hallows.terms hname
  have hblank : isBlank ("" ++ characterData content) = true := by simpa using hblank
  obtain ⟨ts, hts⟩ := exists_terms hnames
  refine fill_terms_eq_ok.2 ⟨hblank, ts, map_build_elements hbuild hts, ?_⟩
  rw [childNodes_of_isBlank hblank, ← hts]
  simp [List.filterMap_map, Function.comp_def, Node.asTerm?, TermTable.empty, TermTable.ofTerms]

include hallows hbuild in
theorem fill_term_of_allows (hname : name = "term") (supplied : Attributes) :
    (fill .builtins content ⟨.term (.create supplied), ""⟩ >>= OpenNode.finish) =
      .ok (.term { Term.create supplied with content := termContent content }) := by
  by_cases helements : elements content = []
  · rw [fill_of_holdsText helements rfl, termContent, if_pos (List.isEmpty_iff.2 helements)]
    rfl
  · obtain ⟨hnames, hblank⟩ := hallows.term hname helements
    obtain ⟨forms, hnodes, hforms⟩ := exists_forms hnames
    refine (fill_term_eq_ok rfl (.inl helements)).2
      ⟨by simpa using hblank, forms, map_build_elements hbuild hnodes, hforms, ?_⟩
    rw [foldl_withForm hnodes.symm hnames (t := .create supplied) rfl]
    simp [termContent, helements]

include hallows in
theorem fill_form_of_allows (hname : name = "single" ∨ name = "multiple")
    (type : NodeType) (supplied : Attributes) :
    (fill .builtins content ⟨.text (.typed type supplied ""), ""⟩ >>= OpenNode.finish) =
      .ok (.text { TextNode.typed type supplied "" with text := characterData content }) := by
  rw [fill_of_holdsText (hallows.form hname) rfl]
  simp [Node.pushText, TextNode.push, TextNode.typed]

end

/-- An element that obeys the rule everywhere is built into its node. -/
theorem build_of_obeys {i : Item} (h : i.Obeys) (hi : i.isElement = true) :
    i.build .builtins = .ok i.node := by
  induction h with
  | text | aside => simp [isElement] at hi
  | empty name attributes => rw [build, node]
  | @element name attributes content hallows _ ih =>
    have hbuild : ∀ c ∈ elements content, c.build .builtins = .ok c.node := by
      intro c hc
      obtain ⟨hmem, hc⟩ := List.mem_filter.1 hc
      exact ih c hmem hc
    rw [build_element_eq_ok, node]
    by_cases hterms : name = "terms"
    · rw [hterms, Registry.create_terms]
      exact ⟨rfl, fill_terms_of_allows hallows hbuild hterms⟩
    by_cases hterm : name = "term"
    · rw [hterm, Registry.create_term]
      exact ⟨rfl, fill_term_of_allows hallows hbuild hterm _⟩
    by_cases hsingle : name = "single"
    · rw [hsingle, Registry.create_single]
      exact ⟨Registry.name_single, fill_form_of_allows hallows (.inl hsingle) _ _⟩
    by_cases hmultiple : name = "multiple"
    · rw [hmultiple, Registry.create_multiple]
      exact ⟨Registry.name_multiple, fill_form_of_allows hallows (.inr hmultiple) _ _⟩
    obtain ⟨type?, attributes', hcreate⟩ := Registry.create_other (.ofPairs attributes)
      (show name ∉ ["terms", "term", "single", "multiple"] by simp_all)
    rw [hcreate]
    exact ⟨rfl, fill_element (childrenOf_childNodes "" hbuild) (by simp)⟩

/-! ## Only obedient documents are read -/

theorem name_of_build_term {i : Item} {t : Term} (h : i.build .builtins = .ok (.term t)) :
    i.name = "term" := by
  have hkind := Node.kind_eq_of_head (head_build _ h)
  rw [fresh, Registry.kind_create, Node.kind] at hkind
  split_ifs at hkind with hterms hterm hform
  exact hterm

theorem name_of_build_text {i : Item} {form : TextNode}
    (h : i.build .builtins = .ok (.text form)) : i.name = "single" ∨ i.name = "multiple" := by
  have hkind := Node.kind_eq_of_head (head_build _ h)
  rw [fresh, Registry.kind_create, Node.kind] at hkind
  split_ifs at hkind with hterms hterm hform
  exact hform

/-- An element that can be built contains what it may. -/
theorem allows_of_build {name : String} {attributes : List (String × String)} {content : List Item}
    {n : Node} (h : build .builtins (.element name attributes content) = .ok n) :
    Allows name content := by
  obtain ⟨-, hfill⟩ := build_element_eq_ok.1 h
  constructor
  · rintro rfl
    rw [Registry.create_terms] at hfill
    obtain ⟨hblank, ts, hts, -⟩ := fill_terms_eq_ok.1 hfill
    refine ⟨fun c hc => ?_, by simpa using hblank⟩
    obtain ⟨t, ht⟩ := (exists_of_map_build hts).1 c hc
    exact name_of_build_term ht
  · rintro rfl helements
    rw [Registry.create_term] at hfill
    obtain ⟨hblank, forms, hforms, -, -⟩ := (fill_term_eq_ok rfl (.inl helements)).1 hfill
    refine ⟨fun c hc => ?_, by simpa using hblank⟩
    obtain ⟨form, hform⟩ := (exists_of_map_build hforms).1 c hc
    exact name_of_build_text hform
  · intro hname
    obtain ⟨o, hfill, -⟩ := Result.bind_eq_ok.1 hfill
    refine elements_eq_nil_of_fill_text ?_ hfill
    rcases hname with rfl | rfl
    · rw [Registry.create_single]; rfl
    · rw [Registry.create_multiple]; rfl

/-- An element that can be built obeys the rule everywhere. -/
theorem obeys_of_build {i : Item} {n : Node} (h : i.build .builtins = .ok n) : i.Obeys := by
  induction i using Item.inductionOn generalizing n with
  | empty name attributes => exact .empty name attributes
  | text content => exact .text content
  | aside => exact .aside
  | element name attributes content ih =>
    obtain ⟨o, hfill, -⟩ := Result.bind_eq_ok.1 h
    apply Obeys.element (allows_of_build h)
    intro c hc
    cases c with
    | text s => exact .text s
    | aside => exact .aside
    | element | empty =>
      obtain ⟨m, hm⟩ := exists_build_of_fill hfill _ (List.mem_filter.2 ⟨hc, rfl⟩)
      exact ih _ hc hm

end Markup.Item

/-! ## Whole documents -/

/-- A document that the scanner reads to its end, in which all tags are closed and which has one
element outside all others, is read with the built-in types just when that element obeys the rule
everywhere, and then it is read as the node that the recursion yields. The tags are all closed
just when `forest?` reads the tokens (`exists_forest_iff`). -/
theorem Node.parse_iff_obeys (s : String) (row : List Item) (root : Item)
    (hfault : (scan s).fault? = none) (hrow : forest? (scan s).tokens = some row)
    (hroot : Item.elements row = [root]) :
    ((∃ t, Node.parse s = .ok t) ↔ root.Obeys) ∧
      (root.Obeys → Node.parse s = .ok root.node) := by
  have hparse : Node.parse s = root.build .builtins := parseWith_of_forest hfault hrow hroot
  have helement : root.isElement = true := by
    have hmem : root ∈ Item.elements row := by simp [hroot]
    exact (List.mem_filter.1 hmem).2
  rw [hparse]
  refine ⟨⟨?_, fun h => ⟨root.node, Item.build_of_obeys h helement⟩⟩, fun h => ?_⟩
  · rintro ⟨t, ht⟩
    exact Item.obeys_of_build ht
  · exact Item.build_of_obeys h helement

/-- A document with one term: the general statement applies, and the term obeys the rule. -/
theorem Node.parse_one_term :
    Node.parse "<term name='page'>p.</term>" =
      .ok (Item.node (.element "term" [("name", "page")] [.text "p."])) := by
  have hscan : scan "<term name='page'>p.</term>" =
      ⟨[.start "term" [("name", "page")], .text "p.", .close "term"], none⟩ := by
    decide +kernel
  refine (parse_iff_obeys _ [.element "term" [("name", "page")] [.text "p."]] _
    (by rw [hscan]) (by rw [hscan]; rfl) rfl).2 (.element ⟨?_, ?_, ?_⟩ ?_)
  · intro h
    exact absurd h (by decide)
  · intro _ h
    exact absurd rfl h
  · intro _
    rfl
  · intro c hc
    obtain rfl := List.mem_singleton.1 hc
    exact .text "p."

end CitationLocale
