import Mathlib.Data.List.Basic
import CitationLocale.Markup.Token
import CitationLocale.Proofs.Result

/-!
# Documents as rows of items

The tokens of a document whose tags are all closed form a row of items: elements with what they
contain, runs of character data, and asides. `openAfter` follows the open elements through the
tokens, `forest?` reads the row, and the two succeed together (`exists_forest_iff`). The tokens
that the scanner yields never close an element that is not open (`openAfter_scan`).
-/

namespace CitationLocale.Markup

/-! ## Open elements -/

/-- The names of the open elements after one more token, innermost first; a close tag has to
match. -/
def openStep (names : List String) : Token → Option (List String)
  | .start name _ => some (name :: names)
  | .close name =>
    match names with
    | [] => none
    | expected :: outer => if name = expected then some outer else none
  | _ => some names

/-- The names of the open elements after some tokens. -/
def openAfter (names : List String) (ts : List Token) : Option (List String) :=
  ts.foldlM openStep names

@[simp] theorem openAfter_nil (names : List String) : openAfter names [] = some names := rfl

@[simp] theorem openAfter_cons (names : List String) (t : Token) (ts : List Token) :
    openAfter names (t :: ts) = (openStep names t).bind (openAfter · ts) := rfl

theorem openAfter_append (names : List String) (ts us : List Token) :
    openAfter names (ts ++ us) = (openAfter names ts).bind (openAfter · us) :=
  List.foldlM_append

theorem openStep_of_stepOpenTag {opened : List (List Char)} {stop : Nat} {body : List Char}
    {step : Step} (h : stepOpenTag opened stop body = .ok step) :
    openStep (opened.map String.ofList) step.token = some (step.opened.map String.ofList) := by
  simp only [stepOpenTag] at h
  split at h
  · simp at h
  · simp at h
  · next name attributes hread =>
    have hname : String.ofList ((if body.getLast? == some '/' then body.dropLast
        else body).takeWhile isNameChar) = name := by
      unfold readTag at hread
      obtain ⟨as, -, hpair⟩ := Result.map_eq_ok.1 hread
      exact congrArg Prod.fst hpair
    split at h
    · obtain rfl := Except.ok.inj h
      rfl
    · obtain rfl := Except.ok.inj h
      simp only [openStep, List.map_cons, ← hname]
      simp_all

/-- The scanner keeps the names of the open elements as the tokens say. -/
theorem openStep_of_stepPiece {opened : List (List Char)} {start stop : Nat} {piece : Piece}
    {step : Step} (h : stepPiece opened start stop piece = .ok step) :
    openStep (opened.map String.ofList) step.token = some (step.opened.map String.ofList) := by
  cases piece with
  | text content =>
    simp only [stepPiece] at h
    split at h
    · simp at h
    · obtain rfl := Except.ok.inj h
      rfl
  | openTag body =>
    exact openStep_of_stepOpenTag h
  | closeTag body =>
    simp only [stepPiece, stepCloseTag] at h
    cases opened with
    | nil => simp at h
    | cons expected outer =>
      simp only at h
      split_ifs at h with hname
      obtain rfl := Except.ok.inj h
      simp [openStep, hname]
  | comment content | instruction content | cdata content =>
    obtain rfl := Except.ok.inj h
    rfl
  | doctype keyword content =>
    simp only [stepPiece] at h
    split_ifs at h
    obtain rfl := Except.ok.inj h
    rfl

theorem openAfter_scanFrom (opened : List (List Char)) (position : Nat) (cs : List Char) :
    (openAfter (opened.map String.ofList) (scanFrom opened position cs).tokens).isSome := by
  fun_induction scanFrom opened position cs with
  | case1 | case2 | case3 => rfl
  | case4 opened position c cs piece rest hcut stop step hstep later ih =>
    rw [openAfter_cons, openStep_of_stepPiece hstep]
    exact ih

/-- No token of a document closes an element that is not the innermost open one. -/
theorem openAfter_scan (s : String) : (openAfter [] (scan s).tokens).isSome :=
  openAfter_scanFrom [] 0 _

/-! ## Items -/

/-- A part of a document: an element with content, an element that closes itself, character data,
or an aside. -/
inductive Item where
  | element (name : String) (attributes : List (String × String)) (content : List Item)
  | empty (name : String) (attributes : List (String × String))
  | text (content : String)
  | aside

namespace Item

mutual

/-- The tokens of an item. -/
def tokens : Item → List Token
  | element name attributes content =>
    .start name attributes :: (rowTokens content ++ [.close name])
  | empty name attributes => [.empty name attributes]
  | text content => [.text content]
  | aside => [.aside]

/-- The tokens of a row of items. -/
def rowTokens : List Item → List Token
  | [] => []
  | i :: row => i.tokens ++ rowTokens row

end

/-- Induction over an item with a hypothesis for everything in its content. -/
@[elab_as_elim]
theorem inductionOn {motive : Item → Prop} (i : Item)
    (element : ∀ name attributes content, (∀ c ∈ content, motive c) →
      motive (.element name attributes content))
    (empty : ∀ name attributes, motive (.empty name attributes))
    (text : ∀ content, motive (.text content)) (aside : motive .aside) : motive i :=
  go i
where
  go : ∀ i, motive i
    | .element name attributes content => element name attributes content (goAll content)
    | .empty name attributes => empty name attributes
    | .text content => text content
    | .aside => aside
  goAll : ∀ row : List Item, ∀ c ∈ row, motive c
    | [], _, h => absurd h List.not_mem_nil
    | i :: row, c, h => (List.mem_cons.1 h).elim (fun h => h ▸ go i) (goAll row c)

/-- Whether an item is an element. -/
def isElement : Item → Bool
  | element .. => true
  | empty .. => true
  | _ => false

/-- The elements among some items. -/
def elements (row : List Item) : List Item :=
  row.filter isElement

theorem isElement_of_mem_elements {row : List Item} {i : Item} (h : i ∈ elements row) :
    i.isElement = true :=
  (List.mem_filter.1 h).2

theorem rowTokens_append (row later : List Item) :
    rowTokens (row ++ later) = rowTokens row ++ rowTokens later := by
  induction row with
  | nil => rfl
  | cons i row ih => simp [rowTokens, ih]

end Item

/-! ## Reading the tokens as items -/

/-- Character data is the same whether it is marked as such or escaped. -/
def Token.plain : Token → Token
  | .cdata content => .text content
  | t => t

/-- Reads tokens from the last to the first. The result is the row of items up to the first close
tag whose start tag is still to come, and for each such close tag its name and the row behind. -/
def gather : List Token → Option (List Item × List (String × List Item))
  | [] => some ([], [])
  | t :: ts => do
    let (row, later) ← gather ts
    match t, later with
    | .text content, _ => some (.text content :: row, later)
    | .cdata content, _ => some (.text content :: row, later)
    | .aside, _ => some (.aside :: row, later)
    | .empty name attributes, _ => some (.empty name attributes :: row, later)
    | .close name, _ => some ([], (name, row) :: later)
    | .start name attributes, (closing, after) :: later =>
      if name = closing then some (.element name attributes row :: after, later) else none
    | .start _ _, [] => none

/-- The row of items that the tokens of a document form, if all tags are closed. -/
def forest? (ts : List Token) : Option (List Item) := do
  let (row, later) ← gather ts
  if later.isEmpty then some row else none

theorem gather_of_openAfter {names : List String} {ts : List Token}
    (h : openAfter names ts = some []) :
    ∃ row later, gather ts = some (row, later) ∧ later.map Prod.fst = names := by
  induction ts generalizing names with
  | nil =>
    obtain rfl : names = [] := by simpa using h
    exact ⟨[], [], rfl, rfl⟩
  | cons t ts ih =>
    rw [openAfter_cons, Option.bind_eq_some_iff] at h
    obtain ⟨next, hstep, hrest⟩ := h
    obtain ⟨row, later, hgather, hnames⟩ := ih hrest
    cases t with
    | start name attributes =>
      obtain rfl := Option.some.inj hstep
      obtain ⟨⟨closing, after⟩, later, rfl, hclosing, rfl⟩ := List.map_eq_cons_iff.1 hnames
      obtain rfl : closing = name := hclosing
      refine ⟨.element closing attributes row :: after, later, ?_, rfl⟩
      simp [gather, hgather]
    | close name =>
      cases names with
      | nil => simp [openStep] at hstep
      | cons expected outer =>
        simp only [openStep] at hstep
        split_ifs at hstep with hname
        obtain rfl := Option.some.inj hstep
        refine ⟨[], (name, row) :: later, ?_, by rw [List.map_cons, hnames, hname]⟩
        simp [gather, hgather]
    | empty name attributes | text content | cdata content | aside =>
      obtain rfl := Option.some.inj hstep
      refine ⟨_, later, by rw [gather, hgather]; rfl, hnames⟩

theorem plain_of_gather {ts : List Token} {row : List Item} {later : List (String × List Item)}
    (h : gather ts = some (row, later)) :
    ts.map Token.plain = Item.rowTokens row ++
      later.flatMap fun c => Token.close c.1 :: Item.rowTokens c.2 := by
  induction ts generalizing row later with
  | nil =>
    obtain ⟨rfl, rfl⟩ : [] = row ∧ [] = later := by simpa [gather] using h
    rfl
  | cons t ts ih =>
    rw [gather] at h
    obtain ⟨⟨row', later'⟩, hgather, h⟩ := Option.bind_eq_some_iff.1 h
    have ih := ih hgather
    rw [List.map_cons, ih]
    cases t with
    | start name attributes =>
      cases later' with
      | nil => simp at h
      | cons c later' =>
        obtain ⟨closing, after⟩ := c
        simp only at h
        split_ifs at h with hname
        simp only [Option.some.injEq, Prod.mk.injEq] at h
        obtain ⟨rfl, rfl⟩ := h
        simp [Item.rowTokens, Item.tokens, Token.plain, hname]
    | empty name attributes | text content | cdata content | aside | close name =>
      simp only [Option.some.injEq, Prod.mk.injEq] at h
      obtain ⟨rfl, rfl⟩ := h
      simp [Item.rowTokens, Item.tokens, Token.plain]

/-- The tokens of a document are those of its items. -/
theorem plain_of_forest? {ts : List Token} {row : List Item} (h : forest? ts = some row) :
    ts.map Token.plain = Item.rowTokens row := by
  unfold forest? at h
  obtain ⟨⟨row', later⟩, hgather, h⟩ := Option.bind_eq_some_iff.1 h
  simp only at h
  split_ifs at h with hlater
  obtain rfl := Option.some.inj h
  rw [plain_of_gather hgather, List.isEmpty_iff.1 hlater]
  simp

theorem forest?_of_openAfter {ts : List Token} (h : openAfter [] ts = some []) :
    ∃ row, forest? ts = some row := by
  obtain ⟨row, later, hgather, hnames⟩ := gather_of_openAfter h
  obtain rfl := List.map_eq_nil_iff.1 hnames
  exact ⟨row, by simp [forest?, hgather]⟩

@[simp] theorem openAfter_plain (names : List String) (ts : List Token) :
    openAfter names (ts.map Token.plain) = openAfter names ts := by
  induction ts generalizing names with
  | nil => rfl
  | cons t ts ih =>
    have hstep : openStep names t.plain = openStep names t := by cases t <;> rfl
    simp [hstep, ih]

/-- An item leaves the same elements open as before. -/
theorem openAfter_tokens (i : Item) (names : List String) :
    openAfter names i.tokens = some names := by
  induction i using Item.inductionOn generalizing names with
  | element name attributes content ih =>
    have hcontent : openAfter (name :: names) (Item.rowTokens content) = some (name :: names) := by
      induction content with
      | nil => rfl
      | cons c content ihc =>
        rw [Item.rowTokens, openAfter_append, ih c (by simp)]
        exact ihc fun d hd => ih d (List.mem_cons_of_mem c hd)
    simp [Item.tokens, openStep, openAfter_append, hcontent]
  | empty | text | aside => rfl

theorem openAfter_rowTokens (row : List Item) (names : List String) :
    openAfter names (Item.rowTokens row) = some names := by
  induction row with
  | nil => rfl
  | cons i row ih => rw [Item.rowTokens, openAfter_append, openAfter_tokens]; exact ih

/-- A document is a row of items just when no element is open at its end. -/
theorem exists_forest_iff {ts : List Token} :
    (∃ row, forest? ts = some row) ↔ openAfter [] ts = some [] := by
  refine ⟨?_, forest?_of_openAfter⟩
  rintro ⟨row, h⟩
  rw [← openAfter_plain, plain_of_forest? h]
  exact openAfter_rowTokens row []

end CitationLocale.Markup
