import CitationLocale.Proofs.BestFit

/-!
# Lookups with related options

How the answers of two lookups are related whose options differ, or whose tables do. A form that no
term has gives way to the next one of its chain, and a term that was found is found again if its own
gender or form is asked for. Only the terms with the wanted name have a say: a lookup in all terms
finds what a lookup among these finds (`TermTable.lookups_coherent`).
-/

namespace CitationLocale

namespace TermForm

/-- The next more general form, to which a form falls back. -/
def next? : TermForm → Option TermForm
  | long => none
  | short => some long
  | verb => some long
  | verbShort => some verb
  | symbol => some short

/-- Behind a form its chain is that of the next form. -/
theorem fallbacks_of_next? {form next : TermForm} (h : form.next? = some next) :
    form.fallbacks = form :: next.fallbacks := by
  cases form <;> cases h <;> rfl

theorem head?_fallbacks (form : TermForm) : form.fallbacks.head? = some form := by
  cases form <;> rfl

end TermForm

/-- Whether a term has the wanted gender, if one is wanted. -/
def Term.HasGender (t : Term) (gender? : Option Gender) : Prop :=
  ∀ gender, gender? = some gender → t.gender = gender

/-! ## Searches that pass over elements -/

section

variable {α : Type} {p q : α → Bool}

/-- A search finds an element at the same place among those that could be found at all. -/
theorem map_countP_findIdx? (h : ∀ a, p a = true → q a = true) (l : List α) :
    ((l.findIdx? p).map fun i => (l.take i).countP q) = (l.filter q).findIdx? p := by
  induction l with
  | nil => rfl
  | cons a l ih =>
    rw [List.findIdx?_cons]
    by_cases hp : p a = true
    · rw [List.filter_cons_of_pos (h a hp), List.findIdx?_cons, if_pos hp, if_pos hp]
      rfl
    · by_cases hq : q a = true
      · rw [List.filter_cons_of_pos hq, List.findIdx?_cons, if_neg hp, if_neg hp, ← ih,
          Option.map_map, Option.map_map]
        simp [Function.comp_def, hq]
      · rw [List.filter_cons_of_neg hq, if_neg hp, ← ih, Option.map_map]
        simp [Function.comp_def, hq]

theorem getElem?_countP_filter {l : List α} {i : Nat} {a : α} (ha : l[i]? = some a)
    (hq : q a = true) : (l.filter q)[(l.take i).countP q]? = some a := by
  obtain ⟨hi, rfl⟩ := List.getElem?_eq_some_iff.1 ha
  have hsplit : l.filter q = (l.take i).filter q ++ l[i] :: (l.drop (i + 1)).filter q := by
    rw [← List.filter_cons_of_pos hq, ← List.drop_eq_getElem_cons hi, ← List.filter_append,
      List.take_append_drop]
  rw [hsplit, List.countP_eq_length_filter, List.getElem?_append_right le_rfl, Nat.sub_self]
  rfl

end

namespace TermTable

variable {table : TermTable} {name : String} {options : LookupOptions} {i : Nat} {t : Term}

/-- A lookup finds a term at a place. -/
def Finds (table : TermTable) (name : String) (options : LookupOptions) (i : Nat) (t : Term) :
    Prop :=
  table.lookupIndex? name options = some i ∧ table.lookup? name options = some t

theorem finds_iff : table.Finds name options i t ↔
    table.terms[i]? = some t ∧ table.lookupIndex? name options = some i :=
  bind_getElem?_eq_some_iff

theorem exists_of_lookupIndex? (h : table.lookupIndex? name options = some i) :
    ∃ t, table.terms[i]? = some t ∧ t.name? = some name := by
  rcases lookupIndex?_eq_some_iff.1 h with ⟨k, ⟨t, form, ht, hname, -⟩, -⟩ | ⟨-, hfirst⟩
  · exact ⟨t, ht, hname⟩
  · exact hfirst.1

/-! ## Other options -/

theorem lookup?_congr {options' : LookupOptions}
    (h : table.lookupIndex? name options = table.lookupIndex? name options') :
    table.lookup? name options = table.lookup? name options' := by
  rw [lookup?, lookup?, h]

/-- A form that no suitable term has gives way to the next one. -/
theorem lookupIndex?_of_next? {form next : TermForm} (hform : options.form? = some form)
    (hnext : form.next? = some next)
    (hnone : ∀ t ∈ table.terms, t.name? = some name → t.HasGender options.gender? →
      t.form? ≠ some form) :
    table.lookupIndex? name options =
      table.lookupIndex? name { options with form? := some next } := by
  have hchain : options.chain =
      form :: ({ options with form? := some next } : LookupOptions).chain := by
    rw [LookupOptions.chain, hform]
    exact TermForm.fallbacks_of_next? hnext
  have hfind : table.terms.findIdx? (isWanted name options form) = none := by
    rw [findIdx?_eq_none_iff]
    intro t ht hwanted
    obtain ⟨hname, hgender, hform⟩ := isWanted_iff.1 hwanted
    exact hnone t ht hname hgender hform
  rw [lookupIndex?_eq, lookupIndex?_eq, hchain, List.findSome?_cons, hfind]
  rfl

/-- What is found without regard to the gender is found also if its own gender is wanted. -/
theorem Finds.of_own_gender (h : table.Finds name options i t) (hgender : options.gender? = none) :
    table.Finds name { options with gender? := some t.gender } i t := by
  obtain ⟨ht, hi⟩ := finds_iff.1 h
  refine finds_iff.2 ⟨ht, lookupIndex?_eq_some_iff.2 ?_⟩
  have hfits {k j : Nat} (hfit : table.FitsAt name { options with gender? := some t.gender } k j) :
      table.FitsAt name options k j := by
    obtain ⟨u, form, hu, hname, -, hform, hk⟩ := hfit
    exact ⟨u, form, hu, hname, fun g hg => absurd (hgender.symm.trans hg) (by simp), hform, hk⟩
  rcases lookupIndex?_eq_some_iff.1 hi with ⟨k, ⟨u, form, hu, hname, -, hform, hk⟩, hleast⟩ |
      ⟨hnone, hfirst⟩
  · obtain rfl : u = t := Option.some.inj (hu.symm.trans ht)
    refine .inl ⟨k, ⟨u, form, hu, hname, ?_, hform, hk⟩, fun x hx => hleast (hfits hx)⟩
    exact fun g hg => Option.some.inj hg
  · exact .inr ⟨fun k j hfit => hnone k j (hfits hfit), hfirst⟩

/-- What a lookup finds fits best if it fits at all. -/
theorem isBestFit_of_fitsAt {k : Nat} (hi : table.lookupIndex? name options = some i)
    (hfit : table.FitsAt name options k i) : table.IsBestFit name options i := by
  rcases lookupIndex?_eq_some_iff.1 hi with hbest | ⟨hnone, -⟩
  · exact hbest
  · exact absurd hfit (hnone k i)

/-- What is found in a form of the chain is found also if this form is wanted. -/
theorem Finds.of_own_form (h : table.Finds name options i t) {form : TermForm}
    (hgender : t.HasGender options.gender?) (hform : t.form? = some form)
    (hmem : form ∈ options.chain) :
    table.Finds name { options with form? := some form } i t := by
  obtain ⟨ht, hi⟩ := finds_iff.1 h
  obtain ⟨u, hu, hname⟩ := exists_of_lookupIndex? hi
  obtain rfl : u = t := Option.some.inj (hu.symm.trans ht)
  obtain ⟨l, hl⟩ := List.mem_iff_getElem?.1 hmem
  obtain ⟨k, ⟨v, form', hv, -, -, hform', hk⟩, hleast⟩ :=
    isBestFit_of_fitsAt hi ⟨u, form, hu, hname, hgender, hform, hl⟩
  obtain rfl : v = u := Option.some.inj (hv.symm.trans hu)
  obtain rfl : form' = form := Option.some.inj (hform'.symm.trans hform)
  have hhead : ({ options with form? := some form' } : LookupOptions).chain[0]? = some form' := by
    rw [← List.head?_eq_getElem?]
    exact form'.head?_fallbacks
  refine finds_iff.2 ⟨hv, lookupIndex?_eq_some_iff.2
    (.inl ⟨0, ⟨v, form', hv, hname, hgender, hform, hhead⟩, ?_⟩)⟩
  rintro x ⟨w, form, hw, hwname, hwgender, hwform, hx⟩
  rw [Prod.Lex.le_iff]
  rcases Nat.eq_zero_or_pos (ofLex x).1 with hzero | hpos
  · -- another term in the wanted form fits at the same position of the old chain
    rw [hzero, hhead] at hx
    obtain rfl := Option.some.inj hx
    have hle := hleast (a := toLex (k, (ofLex x).2)) ⟨w, form', hw, hwname, hwgender, hwform, hk⟩
    refine .inr ⟨hzero.symm, ?_⟩
    simpa [Prod.Lex.le_iff] using hle
  · exact .inl hpos

/-! ## Other tables -/

/-- The terms with a name, in the order of the table. -/
def named (table : TermTable) (name : String) : List Term :=
  table.terms.filter fun t => t.name? == some name

/-- How many terms with a name stand before a place. -/
def rank (table : TermTable) (name : String) (i : Nat) : Nat :=
  (table.terms.take i).countP fun t => t.name? == some name

/-- Among the terms with the name the same one is found as in the whole table. -/
theorem map_rank_lookupIndex? (table : TermTable) (name : String) (options : LookupOptions) :
    (table.lookupIndex? name options).map (table.rank name) =
      (ofTerms (table.named name)).lookupIndex? name options := by
  have hsearch {p : Term → Bool} (hp : ∀ t, p t = true → (t.name? == some name) = true) :
      (table.terms.findIdx? p).map (table.rank name) = (table.named name).findIdx? p :=
    map_countP_findIdx? hp table.terms
  have hwanted (form : TermForm) : ∀ t, isWanted name options form t = true →
      (t.name? == some name) = true := fun t ht => (Bool.and_eq_true_iff.1 ht).1
  rw [lookupIndex?_eq, lookupIndex?_eq, Option.map_or, List.map_findSome?, hsearch fun _ => id]
  simp only [Function.comp_def, hsearch (hwanted _), terms_ofTerms]

theorem lookup?_named (table : TermTable) (name : String) (options : LookupOptions) :
    (ofTerms (table.named name)).lookup? name options = table.lookup? name options := by
  have hrank := map_rank_lookupIndex? table name options
  cases hi : table.lookupIndex? name options with
  | none =>
    rw [hi] at hrank
    rw [lookup?, lookup?, hi, ← hrank]
    rfl
  | some i =>
    rw [hi] at hrank
    obtain ⟨t, ht, hname⟩ := exists_of_lookupIndex? hi
    rw [lookup?, lookup?, hi, ← hrank]
    have hname : (t.name? == some name) = true := beq_iff_eq.2 hname
    exact (getElem?_countP_filter ht hname).trans ht.symm

/-- How lookups with related options or in related tables agree. A form other than the long one
that no term of the name and gender has may be replaced by the next form of its chain. A term that
is found whatever its gender is found if its gender is wanted, and a term of the wanted gender that
is found in a form of the chain is found if this form is wanted. Two tables in which the same terms
have the name, in the same order, answer by the same one of these. -/
theorem lookups_coherent (table : TermTable) (name : String) (options : LookupOptions) :
    (∀ form next, options.form? = some form → form.next? = some next →
      (∀ t ∈ table.terms, t.name? = some name → t.HasGender options.gender? →
        t.form? ≠ some form) →
      table.lookupIndex? name options =
          table.lookupIndex? name { options with form? := some next } ∧
        table.lookup? name options = table.lookup? name { options with form? := some next }) ∧
    (∀ i t, options.gender? = none → table.Finds name options i t →
      table.Finds name { options with gender? := some t.gender } i t) ∧
    (∀ i t form, table.Finds name options i t → t.HasGender options.gender? →
      t.form? = some form → form ∈ options.chain →
      table.Finds name { options with form? := some form } i t) ∧
    ∀ other : TermTable, other.named name = table.named name →
      other.lookup? name options = table.lookup? name options ∧
        (other.lookupIndex? name options).map (other.rank name) =
          (table.lookupIndex? name options).map (table.rank name) := by
  refine ⟨fun form next hform hnext hnone => ?_, fun _ _ hgender h => h.of_own_gender hgender,
    fun _ _ _ h => h.of_own_form, fun other hnamed => ⟨?_, ?_⟩⟩
  · have hindex := lookupIndex?_of_next? hform hnext hnone
    exact ⟨hindex, lookup?_congr hindex⟩
  · rw [← lookup?_named, hnamed, lookup?_named]
  · rw [map_rank_lookupIndex?, hnamed, map_rank_lookupIndex?]

/-- A short form for men, a long form for women, and a term with another name between them. -/
def pages : TermTable :=
  ofTerms [((Term.named "page").setForm .short).setGender .masculine, Term.named "section",
    (Term.named "page").setGender .feminine]

/-- There is no short verb for a page, a symbol is replaced by the short form, and the term between
the two others may be taken away. -/
theorem lookups_coherent_of_pages :
    pages.lookupIndex? "page" ⟨some .verbShort, none, none, false⟩ =
        pages.lookupIndex? "page" ⟨some .verb, none, none, false⟩ ∧
      pages.Finds "page" ⟨some .symbol, some .masculine, none, false⟩ 0
        (((Term.named "page").setForm .short).setGender .masculine) ∧
      pages.Finds "page" ⟨some .short, none, none, false⟩ 0
        (((Term.named "page").setForm .short).setGender .masculine) ∧
      ((ofTerms (pages.named "page")).lookupIndex? "page" .default).map
          ((ofTerms (pages.named "page")).rank "page") =
        (pages.lookupIndex? "page" .default).map (pages.rank "page") := by
  have hsymbol : pages.Finds "page" ⟨some .symbol, none, none, false⟩ 0
      (((Term.named "page").setForm .short).setGender .masculine) := by
    unfold Finds
    decide
  have hforms : ∀ t ∈ pages.terms, t.form? ≠ some .verbShort := by decide
  refine ⟨?_, ?_, ?_, ?_⟩
  · exact ((lookups_coherent pages "page" ⟨some .verbShort, none, none, false⟩).1 _ _ rfl rfl
      fun t ht _ _ => hforms t ht).1
  · exact (lookups_coherent pages "page" _).2.1 _ _ rfl hsymbol
  · refine (lookups_coherent pages "page" _).2.2.1 _ _ .short hsymbol ?_ (by decide) (by decide)
    exact fun g hg => absurd hg (by simp)
  · exact ((lookups_coherent pages "page" .default).2.2.2 _ (by decide)).2

end TermTable

end CitationLocale
