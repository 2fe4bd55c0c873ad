import CitationLocale.Proofs.AttributeEdits
import CitationLocale.Proofs.Creation
import CitationLocale.Proofs.Division

/-!
# Names that documents give

The scanner does not ask whether a name is an XML name. What it takes for the name of a tag is any
row of characters without markup space that does not start like another construct, possibly none,
and what it takes for the name of an attribute is any row in which `=` does not stand behind the
first character (`Markup.Token.HasReadNames`). These are the names in a tree that was read
(`Node.everywhere_hasReadNames`).
-/

namespace CitationLocale

open Text

namespace Markup

/-- What the name in a tag that was read can be. -/
structure IsReadName (name : String) : Prop where
  head : ∀ c ∈ name.toList.head?, c ∉ ['!', '?', '/']
  chars : ∀ c ∈ name.toList, isNameChar c = true

theorem IsXmlName.isReadName {name : String} (h : IsXmlName name) : IsReadName name :=
  ⟨h.head, h.isNameChar⟩

/-- Whether the names in a token are such as documents give: those in tags can be read again, and
the name in a close tag leaves no quote open. -/
def Token.HasReadNames : Token → Prop
  | .start name attributes => IsReadName name ∧ ∀ a ∈ attributes, IsKey a.1
  | .empty name attributes => IsReadName name ∧ ∀ a ∈ attributes, IsKey a.1
  | .close name => StaysInTag name.toList
  | _ => True

/-! ## Open tags -/

theorem isKey_of_nextAttribute? {total : Nat} {seen : List (List Char × Nat)} {cs : List Char}
    {a : RawAttribute} (h : nextAttribute? total seen cs = .ok (some a)) :
    IsKey (String.ofList a.key) := by
  unfold nextAttribute? at h
  split at h
  · simp at h
  · next c afterFirst hfirst =>
    have hc := List.head?_dropWhile_not isMarkupSpace cs
    rw [hfirst] at hc
    have hkey : IsKey (String.ofList (c :: afterFirst.takeWhile isKeyChar)) :=
      ⟨c, _, String.toList_ofList, hc, List.all_eq_true.1 List.all_takeWhile⟩
    dsimp only at h
    split at h
    · simp at h
    · split_ifs at h
      split at h
      · simp at h
      · split at h
        · simp at h
        · split_ifs at h
          split at h
          · simp at h
          · obtain rfl := Option.some.inj (Except.ok.inj h)
            exact hkey

theorem isKey_of_readAttributes {total : Nat} {seen : List (List Char × Nat)} {cs : List Char}
    {as : List (String × String)} (h : readAttributes total seen cs = .ok as) :
    ∀ a ∈ as, IsKey a.1 := by
  fun_induction readAttributes total seen cs generalizing as with
  | case1 => simp at h
  | case2 =>
    obtain rfl := Except.ok.inj h
    exact fun a ha => absurd ha List.not_mem_nil
  | case3 => simp at h
  | case4 seen cs a hnext value hvalue ih =>
    obtain ⟨later, hlater, rfl⟩ := Result.map_eq_ok.1 h
    exact List.forall_mem_cons.2 ⟨isKey_of_nextAttribute? hnext, ih hlater⟩

theorem isReadName_takeWhile {body content : List Char} (hcontent : content <+: body)
    (hhead : ∀ c ∈ body.head?, c ∉ ['!', '?', '/']) :
    IsReadName (String.ofList (content.takeWhile isNameChar)) := by
  constructor
  · intro c hc
    obtain ⟨later, rfl⟩ := (List.takeWhile_prefix isNameChar).trans hcontent
    rw [String.toList_ofList] at hc
    obtain ⟨cs, hcs⟩ := List.head?_eq_some_iff.1 hc
    exact hhead c (by simp [hcs])
  · rw [String.toList_ofList]
    exact List.all_eq_true.1 List.all_takeWhile

/-- The names in an open tag are such as documents give. -/
theorem hasReadNames_of_stepOpenTag {opened : List (List Char)} {stop : Nat} {body : List Char}
    {step : Step} (hhead : ∀ c ∈ body.head?, c ∉ ['!', '?', '/'])
    (h : stepOpenTag opened stop body = .ok step) : step.token.HasReadNames := by
  have hprefix : (if body.getLast? == some '/' then body.dropLast else body) <+: body := by
    split_ifs
    · exact List.dropLast_prefix body
    · exact List.prefix_refl body
  simp only [stepOpenTag] at h
  split at h
  · simp at h
  · simp at h
  · next name attributes hread =>
    obtain ⟨as, has, hpair⟩ := Result.map_eq_ok.1 hread
    obtain ⟨rfl, rfl⟩ := Prod.mk.inj hpair
    have hnames := And.intro (isReadName_takeWhile hprefix hhead) (isKey_of_readAttributes has)
    by_cases hempty : (body.getLast? == some '/') = true
    · rw [if_pos hempty] at h
      obtain rfl := Except.ok.inj h
      exact hnames
    · rw [if_neg hempty] at h
      obtain rfl := Except.ok.inj h
      exact hnames

/-! ## Close tags -/

/-- A quote that does not come again leaves the tag without end. -/
theorem splitTag_of_quote {q : Char} {cs : List Char} (h : q ∉ cs) :
    splitTag (some q) cs = none := by
  induction cs with
  | nil => rfl
  | cons c cs ih =>
    rw [List.mem_cons, not_or] at h
    have hnext : nextQuote (some q) c = some q := by simp [nextQuote, Ne.symm h.1]
    rw [splitTag_cons, hnext, ih h.2]
    rfl

theorem isQuote_nextQuote {quote? : Option Char} (h : ∀ q ∈ quote?, q = '"' ∨ q = '\'') (c : Char) :
    ∀ q ∈ nextQuote quote? c, q = '"' ∨ q = '\'' := by
  intro q hq
  cases quote? with
  | none =>
    simp only [nextQuote] at hq
    split_ifs at hq with hc
    · obtain rfl := Option.some.inj hq
      simpa using hc
    · simp at hq
  | some p =>
    simp only [nextQuote] at hq
    split_ifs at hq
    · simp at hq
    · exact h q hq

/-- Space at the end of a tag makes no difference to what stays in it. -/
theorem staysInTag_of_append_space {cs spaces : List Char} (h : StaysInTag (cs ++ spaces))
    (hspaces : ∀ c ∈ spaces, isMarkupSpace c = true) : StaysInTag cs := by
  -- What holds of the quote that is open anywhere in `cs`.
  suffices hquote : ∀ quote?, (∀ q ∈ quote?, q = '"' ∨ q = '\'') →
      splitTag quote? (cs ++ (spaces ++ ['>'])) = some (cs ++ spaces, []) →
        splitTag quote? (cs ++ ['>']) = some (cs, []) by
    refine staysInTag_of_splitTag (hquote none (by simp) ?_)
    rw [← List.append_assoc]
    exact h.splitTag []
  clear h
  induction cs with
  | nil =>
    intro quote? hq h
    cases quote? with
    | none => rfl
    | some q =>
      have hmem : q ∉ spaces ++ ['>'] := by
        have hspace : q ∉ spaces := fun hc => by
          have := hspaces q hc
          rcases hq q rfl with rfl | rfl <;> exact absurd this (by decide)
        rcases hq q rfl with rfl | rfl <;> simpa using hspace
      rw [List.nil_append, splitTag_of_quote hmem] at h
      simp at h
  | cons c cs ih =>
    intro quote? hq h
    rw [List.cons_append, splitTag_cons] at h ⊢
    by_cases hend : (quote?.isNone && c == '>') = true
    · rw [if_pos hend] at h
      simp at h
    · rw [if_neg hend] at h ⊢
      obtain ⟨⟨before, after⟩, hsplit, heq⟩ := Option.map_eq_some_iff.1 h
      obtain ⟨hbefore, rfl⟩ := Prod.mk.inj heq
      obtain rfl : before = cs ++ spaces := (List.cons.inj hbefore).2
      rw [ih _ (isQuote_nextQuote hq c) hsplit]
      rfl

theorem staysInTag_closingName {body : List Char} (h : StaysInTag body) :
    StaysInTag (closingName body) := by
  unfold closingName
  split_ifs with hall
  · exact h
  · have hwhole : StaysInTag ((body.reverse.dropWhile isMarkupSpace).reverse ++
        (body.reverse.takeWhile isMarkupSpace).reverse) := by
      rwa [← List.reverse_append, List.takeWhile_append_dropWhile, List.reverse_reverse]
    exact staysInTag_of_append_space hwhole fun c hc =>
      List.all_eq_true.1 List.all_takeWhile c (List.mem_reverse.1 hc)

/-! ## Whole documents -/

theorem hasReadNames_of_stepPiece {opened : List (List Char)} {start stop : Nat} {p : Piece}
    {step : Step} (hp : p.IsWhole) (h : stepPiece opened start stop p = .ok step) :
    step.token.HasReadNames := by
  cases p with
  | openTag body => exact hasReadNames_of_stepOpenTag hp.1 h
  | closeTag body =>
    simp only [stepPiece, stepCloseTag] at h
    cases opened with
    | nil => simp at h
    | cons expected outer =>
      dsimp only at h
      split_ifs at h
      obtain rfl := Except.ok.inj h
      have hstays := staysInTag_closingName hp
      rwa [← String.toList_ofList (l := closingName body)] at hstays
  | text content =>
    simp only [stepPiece] at h
    split at h
    · simp at h
    · obtain rfl := Except.ok.inj h
      trivial
  | comment | cdata | instruction =>
    obtain rfl := Except.ok.inj h
    trivial
  | doctype keyword content =>
    simp only [stepPiece] at h
    split_ifs at h
    obtain rfl := Except.ok.inj h
    trivial

theorem hasReadNames_scanFrom (opened : List (List Char)) (position : Nat) (cs : List Char) :
    ∀ t ∈ (scanFrom opened position cs).tokens, t.HasReadNames := by
  fun_induction scanFrom opened position cs with
  | case1 | case2 | case3 => exact fun t ht => absurd ht List.not_mem_nil
  | case4 opened position c cs piece rest hcut stop step hstep later ih =>
    have hwhole : piece.IsWhole := by
      refine Piece.isWhole_of_cut hcut ?_
      rintro content rfl
      exact not_endsInReference_of_stepPiece hstep
    exact List.forall_mem_cons.2 ⟨hasReadNames_of_stepPiece hwhole hstep, ih⟩

namespace Item

theorem mem_rowTokens {row : List Item} {i : Item} (hi : i ∈ row) {t : Token} (ht : t ∈ i.tokens) :
    t ∈ rowTokens row := by
  induction row with
  | nil => exact absurd hi List.not_mem_nil
  | cons j row ih =>
    rw [rowTokens, List.mem_append]
    rcases List.mem_cons.1 hi with rfl | hi
    · exact .inl ht
    · exact .inr (ih hi)

end Item

end Markup

open Markup

/-! ## Nodes -/

namespace Node

/-- What holds of the names of a single node in a tree that was read. The name is written in a
close tag too if the node has content, and then it leaves no quote open. -/
structure HasReadNames (n : Node) : Prop where
  name : IsReadName n.name
  keys : ∀ a ∈ n.attributes.assigned, IsKey a.1
  content : n.text?.isSome = true ∨ n.children ≠ [] → StaysInTag n.name.toList

theorem hasReadNames_of_isXmlName {n : Node} (hname : IsXmlName n.name)
    (hkeys : ∀ a ∈ n.attributes.assigned, IsXmlName a.1) : n.HasReadNames :=
  ⟨hname.isReadName, fun a ha => (hkeys a ha).isKey, fun _ => staysInTag_name hname⟩

/-- What is made without a type is a generic element with the name and the attributes that were
read. -/
theorem create_of_untyped {r : Registry} {name : String} {supplied : Attributes}
    (h : (r.create name supplied).type? = none) :
    r.create name supplied = .generic name supplied := by
  rw [Registry.create, Registry.type?_instantiate, Option.map_eq_none_iff] at h
  rw [Registry.create, h]
  rfl

/-- A node without type that is built of an item has the names that the tags of the item have. -/
theorem hasReadNames_of_build {r : Registry} {i : Item} {n : Node}
    (hi : ∀ t ∈ i.tokens, t.HasReadNames) (h : i.build r = .ok n) (htype : n.type? = none) :
    n.HasReadNames := by
  have hhead : n.head = (i.fresh r).head := Item.head_build r h
  have hcreate : i.fresh r = .generic i.name (.ofPairs i.start.2) :=
    create_of_untyped (by rw [← Item.fresh, ← type?_eq_of_head hhead, htype])
  rw [hcreate] at hhead
  have hname : n.name = i.name := name_eq_of_head hhead
  have hattributes : n.attributes = .ofPairs i.start.2 := attributes_eq_of_head hhead
  have hkeys (hkey : ∀ a ∈ i.start.2, IsKey a.1) : ∀ a ∈ n.attributes.assigned, IsKey a.1 := by
    intro a ha
    rw [hattributes] at ha
    have hmem := (Attributes.assigned_keys_sublist _).subset (List.mem_map_of_mem ha)
    rcases Attributes.mem_keys_extend_iff.1 hmem with hmem | ⟨hmem, -⟩
    · exact absurd hmem List.not_mem_nil
    · obtain ⟨b, hb, hab⟩ := List.mem_map.1 hmem
      exact hab ▸ hkey b hb
  cases i with
  | element name attributes content =>
    have hstart := hi (.start name attributes) List.mem_cons_self
    have hclose := hi (.close name) (by simp [Item.tokens])
    exact ⟨hname ▸ hstart.1, hkeys hstart.2, fun _ => hname ▸ hclose⟩
  | empty name attributes =>
    have hempty := hi (.empty name attributes) List.mem_cons_self
    refine ⟨hname ▸ hempty.1, hkeys hempty.2, fun hcontent => ?_⟩
    -- An element that closes itself has no content.
    obtain rfl : n = .generic name (.ofPairs attributes) := (Except.ok.inj h).symm.trans hcreate
    simp [generic, text?, children] at hcontent
  | text | aside => simp [Item.build] at h

theorem everywhere_hasReadNames_of_build {r : Registry} {i : Item} {n : Node}
    (hi : ∀ t ∈ i.tokens, t.HasReadNames) (h : i.build r = .ok n) :
    n.Everywhere fun m => m.type? = none → m.HasReadNames := by
  refine Item.everywhere_build_of (K := fun i => ∀ t ∈ i.tokens, t.HasReadNames)
    (fun name attributes content hi j hj t ht => hi t ?_) (fun i n => hasReadNames_of_build)
    (fun s _ => ?_) hi h
  · exact List.mem_cons_of_mem _ (List.mem_append_left _ (Item.mem_rowTokens hj ht))
  · have hname : IsXmlName "text-node" := by decide
    exact hasReadNames_of_isXmlName hname fun a ha => absurd ha List.not_mem_nil

/-- The built-in types have XML names, and so do their attributes. -/
theorem isXmlName_builtins : ∀ t ∈ Registry.builtins.types, IsXmlName t.name ∧
    ∀ spec ∈ t.schema, IsXmlName spec.name := by
  decide +kernel

theorem everywhere_hasReadNames {s : String} {t : Node} (h : Node.parse s = .ok t) :
    t.Everywhere HasReadNames := by
  obtain ⟨-, row, root, hrow, hroot, hbuild⟩ := parseWith_eq_ok.1 h
  have htokens : ∀ token ∈ root.tokens, token.HasReadNames := by
    have hmem : root ∈ row := List.mem_of_mem_filter (p := Item.isElement) (by
      rw [← Item.elements, hroot]
      exact List.mem_singleton_self root)
    intro token htoken
    have hread := Item.mem_rowTokens hmem htoken
    rw [← plain_of_forest? hrow] at hread
    obtain ⟨u, hu, rfl⟩ := List.mem_map.1 hread
    have := hasReadNames_scanFrom [] 0 _ u hu
    cases u <;> exact this
  have hread := (everywhere_isRead Registry.hasUsualNames_builtins h).2
  refine (hread.and (everywhere_hasReadNames_of_build htokens hbuild)).mono fun n hn => ?_
  obtain ⟨hread, huntyped⟩ := hn
  cases htype : n.type? with
  | none => exact huntyped htype
  | some u =>
    have hraw : n.isRaw = false := by
      rw [← Bool.not_eq_true, isRaw_iff, htype]
      exact fun h => Option.some_ne_none u h.2
    have hmade := hread.made hraw
    obtain ⟨v, hv, hname⟩ := hmade.exists_type htype
    have hspecs : ∀ spec ∈ u.schema, IsXmlName spec.name := hmade.of_type
      (P := fun t => ∀ spec ∈ t.schema, IsXmlName spec.name)
      (fun t ht => (isXmlName_builtins t ht).2) (by decide) (by decide) htype
    refine hasReadNames_of_isXmlName (hname ▸ (isXmlName_builtins v hv).1) fun a ha => ?_
    have hkey := n.attributes.assigned_keys_sublist.subset (List.mem_map_of_mem ha)
    rw [hread.record.keys _ (by rw [hread.schema, htype]; rfl)] at hkey
    obtain ⟨spec, hspec, hkey⟩ := List.mem_map.1 hkey
    exact hkey ▸ hspecs spec hspec

end Node

end CitationLocale
