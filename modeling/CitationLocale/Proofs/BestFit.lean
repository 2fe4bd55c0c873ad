import Mathlib.Data.Prod.Lex
import Mathlib.Order.Bounds.Basic
import CitationLocale.TermTable.Lookup

/-!
# The best fit

Which term of a table a lookup selects. Searching the candidates finds the first place in the
table at which there is a term with a property (`TermTable.IsFirst`). The forms of the fallback
chain are tried one after the other, so what is found in one of them is the least in the
lexicographic order of positions in the chain and places in the table
(`TermTable.lookup?_selects_best_fit`).
-/

namespace CitationLocale

/-- The forms that a lookup tries, in order. -/
def LookupOptions.chain (o : LookupOptions) : List TermForm :=
  (o.form?.getD .long).fallbacks

namespace TermTable

variable {table : TermTable}

/-! ## The first term with a property -/

/-- A place is the first one at which there is a term with a property. -/
def IsFirst (table : TermTable) (P : Term → Prop) (i : Nat) : Prop :=
  (∃ t, table.terms[i]? = some t ∧ P t) ∧ ∀ j < i, ∀ t, table.terms[j]? = some t → ¬ P t

theorem IsFirst.of_iff {P Q : Term → Prop} (hPQ : ∀ t ∈ table.terms, P t ↔ Q t) {i : Nat}
    (h : table.IsFirst P i) : table.IsFirst Q i := by
  obtain ⟨⟨t, ht, hP⟩, hbefore⟩ := h
  refine ⟨⟨t, ht, (hPQ t (List.mem_of_getElem? ht)).1 hP⟩, fun j hj u hu hQ => ?_⟩
  exact hbefore j hj u hu ((hPQ u (List.mem_of_getElem? hu)).2 hQ)

theorem isFirst_congr {P Q : Term → Prop} (hPQ : ∀ t ∈ table.terms, P t ↔ Q t) {i : Nat} :
    table.IsFirst P i ↔ table.IsFirst Q i :=
  ⟨.of_iff hPQ, .of_iff fun t ht => (hPQ t ht).symm⟩

theorem findIdx?_eq_some_iff {p : Term → Bool} {i : Nat} :
    table.terms.findIdx? p = some i ↔ table.IsFirst (fun t => p t = true) i := by
  rw [List.findIdx?_eq_some_iff_getElem]
  constructor
  · rintro ⟨hi, hp, hbefore⟩
    refine ⟨⟨table.terms[i], List.getElem?_eq_getElem hi, hp⟩, fun j hj t ht => ?_⟩
    obtain ⟨-, rfl⟩ := List.getElem?_eq_some_iff.1 ht
    exact hbefore j hj
  · rintro ⟨⟨t, ht, hp⟩, hbefore⟩
    obtain ⟨hi, rfl⟩ := List.getElem?_eq_some_iff.1 ht
    exact ⟨hi, hp, fun j hj => hbefore j hj _ (List.getElem?_eq_getElem (hj.trans hi))⟩

theorem findIdx?_eq_none_iff {p : Term → Bool} :
    table.terms.findIdx? p = none ↔ ∀ t ∈ table.terms, ¬ p t = true := by
  simp only [List.findIdx?_eq_none_iff, Bool.not_eq_true]

/-- The first of the candidates with a property is the first term that passes both tests. -/
theorem map_find?_candidates (test found : Term → Bool) :
    ((table.candidates test).find? fun c => found c.1).map Prod.snd =
      table.terms.findIdx? fun t => test t && found t := by
  rw [candidates, List.find?_filter, List.findIdx?_eq_fst_find?_zipIdx]
  simp

theorem map_head?_candidates (test : Term → Bool) :
    (table.candidates test).head?.map Prod.snd = table.terms.findIdx? test := by
  rw [candidates, List.head?_filter, List.findIdx?_eq_fst_find?_zipIdx]

/-! ## The term at a place that was found -/

theorem bind_getElem?_eq_some_iff {place? : Option Nat} {i : Nat} {t : Term} :
    (place? = some i ∧ (place?.bind fun i => table.terms[i]?) = some t) ↔
      table.terms[i]? = some t ∧ place? = some i := by
  constructor
  · rintro ⟨rfl, ht⟩
    exact ⟨ht, rfl⟩
  · rintro ⟨ht, rfl⟩
    exact ⟨rfl, ht⟩

/-- Where every place that is found is one in the table, no term means no place. -/
theorem bind_getElem?_eq_none_iff {place? : Option Nat}
    (h : ∀ i, place? = some i → ∃ t, table.terms[i]? = some t) :
    (place?.bind fun i => table.terms[i]?) = none ↔ place? = none := by
  cases hplace : place? with
  | none => simp
  | some i =>
    obtain ⟨t, ht⟩ := h i hplace
    simp [ht]

/-! ## One property after the other -/

section Chain

variable {α : Type} {chain : List α} {p : α → Term → Bool}

/-- The pairs of a position in a chain of properties and of the place of a term with the property at
this position. -/
def meetings (table : TermTable) (chain : List α) (p : α → Term → Bool) : Set (ℕ ×ₗ ℕ) :=
  {x | ∃ a t, chain[(ofLex x).1]? = some a ∧ table.terms[(ofLex x).2]? = some t ∧ p a t = true}

theorem meetings_eq_empty (h : chain.findSome? (fun a => table.terms.findIdx? (p a)) = none) :
    table.meetings chain p = ∅ := by
  rw [Set.eq_empty_iff_forall_notMem]
  rintro x ⟨a, t, ha, ht, hp⟩
  have hnone := List.findSome?_eq_none_iff.1 h a (List.mem_of_getElem? ha)
  exact findIdx?_eq_none_iff.1 hnone t (List.mem_of_getElem? ht) hp

/-- Trying the properties in turn finds the least of all pairs. -/
theorem isLeast_meetings {i : Nat}
    (h : chain.findSome? (fun a => table.terms.findIdx? (p a)) = some i) :
    ∃ k, IsLeast (table.meetings chain p) (toLex (k, i)) := by
  obtain ⟨before, a, after, rfl, hi, hbefore⟩ := List.findSome?_eq_some_iff.1 h
  obtain ⟨⟨t, ht, hp⟩, hfirst⟩ := findIdx?_eq_some_iff.1 hi
  refine ⟨before.length, ⟨a, t, by simp, ht, hp⟩, ?_⟩
  rintro x ⟨b, u, hb, hu, hq⟩
  rw [Prod.Lex.le_iff]
  rcases Nat.lt_trichotomy (ofLex x).1 before.length with hlt | heq | hgt
  · -- an earlier property has no term
    have hmem : b ∈ before := by
      rw [List.getElem?_append_left hlt] at hb
      exact List.mem_of_getElem? hb
    exact absurd hq (findIdx?_eq_none_iff.1 (hbefore b hmem) u (List.mem_of_getElem? hu))
  · obtain rfl : a = b := by simpa [heq] using hb
    exact .inr ⟨heq.symm, Nat.not_lt.1 fun hlt => hfirst _ hlt u hu hq⟩
  · exact .inl hgt

theorem findSome?_findIdx?_eq_some_iff {i : Nat} :
    chain.findSome? (fun a => table.terms.findIdx? (p a)) = some i ↔
      ∃ k, IsLeast (table.meetings chain p) (toLex (k, i)) := by
  refine ⟨isLeast_meetings, fun ⟨k, hk⟩ => ?_⟩
  cases h : chain.findSome? (fun a => table.terms.findIdx? (p a)) with
  | none =>
    have hmem := hk.1
    rw [meetings_eq_empty h] at hmem
    exact absurd hmem (Set.notMem_empty _)
  | some j =>
    obtain ⟨l, hl⟩ := isLeast_meetings h
    have heq : (l, j) = (k, i) := toLex.injective (hl.unique hk)
    rw [(Prod.mk.inj heq).2]

theorem findSome?_findIdx?_eq_none_iff :
    chain.findSome? (fun a => table.terms.findIdx? (p a)) = none ↔
      table.meetings chain p = ∅ := by
  refine ⟨meetings_eq_empty, fun hempty => ?_⟩
  rw [Option.eq_none_iff_forall_ne_some]
  intro i hi
  obtain ⟨k, hk⟩ := isLeast_meetings hi
  rw [hempty] at hk
  exact hk.1

end Chain

/-! ## Lookups -/

variable {name : String} {options : LookupOptions}

/-- The term at a place has the wanted name and gender, and its form stands at a position of the
chain. -/
def FitsAt (table : TermTable) (name : String) (options : LookupOptions) (k i : Nat) : Prop :=
  ∃ t form, table.terms[i]? = some t ∧ t.name? = some name ∧
    (∀ gender, options.gender? = some gender → t.gender = gender) ∧
    t.form? = some form ∧ options.chain[k]? = some form

/-- A place fits best if its term fits, and no term fits earlier in the chain or, in the same form,
earlier in the table. -/
def IsBestFit (table : TermTable) (name : String) (options : LookupOptions) (i : Nat) : Prop :=
  ∃ k, IsLeast {x : ℕ ×ₗ ℕ | table.FitsAt name options (ofLex x).1 (ofLex x).2} (toLex (k, i))

/-- Whether a term is found when a lookup tries a form. -/
def isWanted (name : String) (options : LookupOptions) (form : TermForm) (t : Term) : Bool :=
  t.name? == some name && t.fits ⟨none, some form, options.gender?⟩

theorem isWanted_iff {form : TermForm} {t : Term} : isWanted name options form t = true ↔
    t.name? = some name ∧ (∀ gender, options.gender? = some gender → t.gender = gender) ∧
      t.form? = some form := by
  unfold isWanted Term.fits
  cases options.gender? <;> simp [and_comm]

theorem meetings_isWanted : table.meetings options.chain (isWanted name options) =
    {x | table.FitsAt name options (ofLex x).1 (ofLex x).2} := by
  ext x
  simp only [meetings, FitsAt, isWanted_iff, Set.mem_ofPred_eq]
  constructor
  · rintro ⟨form, t, hform, ht, hname, hgender, ht'⟩
    exact ⟨t, form, ht, hname, hgender, ht', hform⟩
  · rintro ⟨t, form, ht, hname, hgender, ht', hform⟩
    exact ⟨form, t, hform, ht, hname, hgender, ht'⟩

/-- A lookup tries the forms of the chain and then takes any term with the name. -/
theorem lookupIndex?_eq (table : TermTable) (name : String) (options : LookupOptions) :
    table.lookupIndex? name options =
      (options.chain.findSome? fun form => table.terms.findIdx? (isWanted name options form)).or
        (table.terms.findIdx? fun t => t.name? == some name) := by
  let found := table.candidates fun t => t.name? == some name
  let inForm (form : TermForm) := found.find? fun c => c.1.fits ⟨none, some form, options.gender?⟩
  have hform : (options.chain.findSome? inForm).map Prod.snd =
      options.chain.findSome? fun form => table.terms.findIdx? (isWanted name options form) := by
    have hform (form : TermForm) : (inForm form).map Prod.snd =
        table.terms.findIdx? (isWanted name options form) :=
      map_find?_candidates _ fun t => t.fits ⟨none, some form, options.gender?⟩
    rw [List.map_findSome?, Function.comp_def]
    simp only [hform]
  rw [← hform, ← map_head?_candidates]
  change (found.head?.bind fun first => some ((options.chain.findSome? inForm).getD first).2) =
    ((options.chain.findSome? inForm).map Prod.snd).or (found.head?.map Prod.snd)
  cases h : found.head? with
  | none =>
    have hnone : options.chain.findSome? inForm = none := by
      rw [List.findSome?_eq_none_iff]
      intro form _
      rw [List.find?_eq_none, List.head?_eq_none_iff.1 h]
      exact fun c hc => absurd hc List.not_mem_nil
    rw [hnone]
    rfl
  | some first => cases options.chain.findSome? inForm <;> rfl

theorem lookupIndex?_eq_none_iff : table.lookupIndex? name options = none ↔
    ∀ t ∈ table.terms, t.name? ≠ some name := by
  rw [lookupIndex?_eq, Option.or_eq_none_iff, findIdx?_eq_none_iff]
  simp only [beq_iff_eq]
  refine ⟨And.right, fun h => ⟨?_, h⟩⟩
  rw [findSome?_findIdx?_eq_none_iff, meetings_isWanted, Set.eq_empty_iff_forall_notMem]
  rintro x ⟨t, form, ht, hname, -⟩
  exact h t (List.mem_of_getElem? ht) hname

theorem lookupIndex?_eq_some_iff {i : Nat} : table.lookupIndex? name options = some i ↔
    table.IsBestFit name options i ∨ (∀ k j, ¬ table.FitsAt name options k j) ∧
      table.IsFirst (fun t => t.name? = some name) i := by
  have hnone : table.meetings options.chain (isWanted name options) = ∅ ↔
      ∀ k j, ¬ table.FitsAt name options k j := by
    rw [meetings_isWanted, Set.eq_empty_iff_forall_notMem]
    exact ⟨fun h k j => h (toLex (k, j)), fun h x => h _ _⟩
  rw [lookupIndex?_eq, Option.or_eq_some_iff, findSome?_findIdx?_eq_some_iff,
    findSome?_findIdx?_eq_none_iff, hnone, meetings_isWanted, findIdx?_eq_some_iff]
  simp only [beq_iff_eq]
  rfl

/-- A lookup finds no term exactly if none has the name. Otherwise it finds the term that fits best
or, if none fits, the first one with the name; a term whose form is unknown never fits. -/
theorem lookup?_selects_best_fit (table : TermTable) (name : String) (options : LookupOptions) :
    (table.lookup? name options = none ↔ ∀ t ∈ table.terms, t.name? ≠ some name) ∧
      (∀ i t, table.lookupIndex? name options = some i ∧ table.lookup? name options = some t ↔
        table.terms[i]? = some t ∧ (table.IsBestFit name options i ∨
          (∀ k j, ¬ table.FitsAt name options k j) ∧
            table.IsFirst (fun t => t.name? = some name) i)) ∧
      ∀ k i t s, table.FitsAt name options k i → table.terms[i]? = some t →
        t.attributes.get? "form" = some s → TermForm.ofText? s ≠ none := by
  refine ⟨?_, fun i t => ?_, ?_⟩
  · refine (bind_getElem?_eq_none_iff fun i hi => ?_).trans lookupIndex?_eq_none_iff
    rcases lookupIndex?_eq_some_iff.1 hi with ⟨k, ⟨t, form, ht, -⟩, -⟩ | ⟨-, ⟨t, ht, -⟩, -⟩
    · exact ⟨t, ht⟩
    · exact ⟨t, ht⟩
  · rw [← lookupIndex?_eq_some_iff]
    exact bind_getElem?_eq_some_iff
  · rintro k i t s ⟨u, form, hu, -, -, hform, -⟩ ht hs
    obtain rfl : u = t := Option.some.inj (hu.symm.trans ht)
    rw [Term.form?, hs] at hform
    simp [hform]

end TermTable

end CitationLocale
