import CitationLocale.Proofs.OrdinalChoice

/-!
# What an ordinal depends on

Two numbers get the same ordinal term if no term of the table tells them apart
(`TermTable.Confuses`): their last two digits are the same, and so is what the match rules for whole
numbers say about them. The gender decides between terms of one name only: whatever gender is
wanted, it is the same name under which terms are searched for (`TermTable.exists_search`).
-/

namespace CitationLocale.TermTable

variable {table : TermTable} {m n : Nat} {number number' : Int}

/-! ## Numbers -/

/-- A table does not tell two numbers apart: they end in the same two digits, and they are equal, or
too long to be matched as a whole, or no term asks for this. -/
structure Confuses (table : TermTable) (m n : Nat) : Prop where
  digits : m % 100 = n % 100
  whole : m = n ∨ (100 ≤ m ∧ 100 ≤ n) ∨ ∀ t ∈ table.terms, t.ordinalMatch? ≠ some .wholeNumber

theorem Confuses.lastDigit (h : table.Confuses m n) : m % 10 = n % 10 := by
  have hdigits := h.digits
  omega

/-- The rule for whole numbers says the same about two numbers that a table does not tell apart. -/
theorem Confuses.beq_mod (h : table.Confuses m n) {t : Term} (ht : t ∈ table.terms)
    (hrule : t.ordinalMatch? = some .wholeNumber) {d : Nat} (hd : 0 < d) (hle : d ≤ 100) :
    (m == m % d) = (n == n % d) := by
  rcases h.whole with rfl | ⟨hm, hn⟩ | hnone
  · rfl
  · have hm' : m ≠ m % d := by have := Nat.mod_lt m hd; omega
    have hn' : n ≠ n % d := by have := Nat.mod_lt n hd; omega
    rw [beq_eq_false_iff_ne.2 hm', beq_eq_false_iff_ne.2 hn']
  · exact absurd hrule (hnone t ht)

theorem Confuses.acceptsLastTwo (h : table.Confuses m n) {t : Term} (ht : t ∈ table.terms) :
    acceptsLastTwo m t.ordinalMatch? = acceptsLastTwo n t.ordinalMatch? := by
  cases hrule : t.ordinalMatch? with
  | none => rfl
  | some rule =>
    cases rule with
    | lastDigit | lastTwoDigits => rfl
    | wholeNumber => exact h.beq_mod ht hrule (by decide) (by decide)

theorem Confuses.acceptsLast (h : table.Confuses m n) {t : Term} (ht : t ∈ table.terms) :
    acceptsLast m t.ordinalMatch? = acceptsLast n t.ordinalMatch? := by
  cases hrule : t.ordinalMatch? with
  | none => rfl
  | some rule =>
    cases rule with
    | lastDigit | lastTwoDigits => rfl
    | wholeNumber => exact h.beq_mod ht hrule (by decide) (by decide)

/-- Rules that accept the same terms of a table select the same one. -/
theorem ordinalNamed?_congr {name : String} {gender? : Option Gender}
    {accepts accepts' : Option OrdinalMatch → Bool}
    (h : ∀ t ∈ table.terms, accepts t.ordinalMatch? = accepts' t.ordinalMatch?) :
    table.ordinalNamed? name gender? accepts = table.ordinalNamed? name gender? accepts' := by
  have hcandidates : (table.candidates fun t => t.name? == some name && accepts t.ordinalMatch?) =
      table.candidates fun t => t.name? == some name && accepts' t.ordinalMatch? :=
    List.filter_congr fun c hc => congrArg _ (h c.1 (List.fst_mem_of_mem_zipIdx hc))
  rw [ordinalNamed?, ordinalNamed?, hcandidates]

theorem Confuses.ordinalIndex? (h : table.Confuses number.natAbs number'.natAbs)
    (gender? : Option Gender) :
    table.ordinalIndex? number gender? = table.ordinalIndex? number' gender? := by
  rw [TermTable.ordinalIndex?, TermTable.ordinalIndex?, h.digits, h.lastDigit,
    ordinalNamed?_congr fun t => h.acceptsLastTwo, ordinalNamed?_congr fun t => h.acceptsLast]

theorem Confuses.longOrdinalIndex? (h : table.Confuses number.natAbs number'.natAbs) :
    table.longOrdinalIndex? number = table.longOrdinalIndex? number' := by
  rw [TermTable.longOrdinalIndex?, TermTable.longOrdinalIndex?, h.digits, h.ordinalIndex?,
    ordinalNamed?_congr fun t => h.acceptsLastTwo]

/-! ## Genders -/

section

variable {name : String} {accepts : Option OrdinalMatch → Bool} {gender? : Option Gender} {i : Nat}

/-- A search that succeeds for no gender or for all comes before all later ones or leaves the choice
to them. -/
theorem ordinalNamed?_or (table : TermTable) (name : String)
    (accepts : Option OrdinalMatch → Bool) (later : Option Gender → Option Nat) :
    (∀ gender?, (table.ordinalNamed? name gender? accepts).or (later gender?) =
        table.ordinalNamed? name gender? accepts) ∨
      ∀ gender?, (table.ordinalNamed? name gender? accepts).or (later gender?) = later gender? := by
  by_cases h : ∀ t ∈ table.terms, ¬ (t.name? = some name ∧ accepts t.ordinalMatch? = true)
  · right
    intro gender?
    rw [ordinalNamed?_eq_none_iff.2 h, Option.none_or]
  · left
    intro gender?
    exact Option.or_of_isSome (Option.isSome_iff_ne_none.2 fun hnone =>
      h (ordinalNamed?_eq_none_iff.1 hnone))

/-- Whatever the gender is, one and the same search selects the term for a number. -/
theorem exists_search (table : TermTable) (number : Int) : ∃ name accepts, ∀ gender?,
    table.ordinalIndex? number gender? = table.ordinalNamed? name gender? accepts := by
  let n := number.natAbs
  let byLast (gender? : Option Gender) : Option Nat :=
    table.ordinalNamed? ("ordinal-" ++ twoDigits (n % 10)) gender? (acceptsLast n)
  let general (gender? : Option Gender) : Option Nat :=
    table.ordinalNamed? "ordinal" gender? fun _ => true
  have hindex (gender? : Option Gender) : table.ordinalIndex? number gender? =
      (table.ordinalNamed? ("ordinal-" ++ twoDigits (n % 100)) gender? (acceptsLastTwo n)).or
        ((byLast gender?).or (general gender?)) :=
    Option.or_assoc
  simp only [hindex]
  rcases table.ordinalNamed?_or ("ordinal-" ++ twoDigits (n % 100)) (acceptsLastTwo n)
      fun gender? => (byLast gender?).or (general gender?) with hfirst | hlater
  · exact ⟨_, _, hfirst⟩
  simp only [hlater]
  rcases table.ordinalNamed?_or ("ordinal-" ++ twoDigits (n % 10)) (acceptsLast n) general with
    hfirst | hlater
  · exact ⟨_, _, hfirst⟩
  · exact ⟨_, _, hlater⟩

theorem name?_of_ordinalNamed? (h : table.ordinalNamed? name gender? accepts = some i) :
    ∃ t, table.terms[i]? = some t ∧ t.name? = some name := by
  obtain ⟨t, ht, hname, -⟩ := (ordinalNamed?_eq_some_iff.1 h).holds
  exact ⟨t, ht, hname⟩

end

/-- The name of the term for a number does not depend on the gender. -/
theorem map_name?_ordinalize? (table : TermTable) (number : Int)
    (gender? gender?' : Option Gender) :
    (table.ordinalize? number gender?).map Term.name? =
      (table.ordinalize? number gender?').map Term.name? := by
  obtain ⟨name, accepts, hsearch⟩ := table.exists_search number
  have hnone {g g' : Option Gender} (h : table.ordinalNamed? name g accepts = none) :
      table.ordinalNamed? name g' accepts = none :=
    ordinalNamed?_eq_none_iff.2 (ordinalNamed?_eq_none_iff.1 h)
  rw [ordinalize?, ordinalize?, hsearch, hsearch]
  cases h : table.ordinalNamed? name gender? accepts with
  | none => rw [hnone h]
  | some i =>
    cases h' : table.ordinalNamed? name gender?' accepts with
    | none => cases h.symm.trans (hnone h')
    | some j =>
      obtain ⟨t, ht, hname⟩ := name?_of_ordinalNamed? h
      obtain ⟨u, hu, hname'⟩ := name?_of_ordinalNamed? h'
      simp [ht, hu, hname, hname']

/-! ## Numbers and genders -/

/-- Numbers of the same size have the same ordinal terms, and so have long numbers that end in the
same two digits; where no term is for whole numbers, so have all numbers that end in the same two
digits. Whether there is an ordinal term for a number, and the name of this term, do not depend on
the gender. -/
theorem ordinals_depend_on_digits (table : TermTable) (number number' : Int) :
    (number.natAbs = number'.natAbs ∨
        (100 ≤ number.natAbs ∧ 100 ≤ number'.natAbs ∧
          number.natAbs % 100 = number'.natAbs % 100) ∨
        ((∀ t ∈ table.terms, t.ordinalMatch? ≠ some .wholeNumber) ∧
          number.natAbs % 100 = number'.natAbs % 100) →
      (∀ gender?, table.ordinalIndex? number gender? = table.ordinalIndex? number' gender? ∧
          table.ordinalize? number gender? = table.ordinalize? number' gender?) ∧
        table.longOrdinalIndex? number = table.longOrdinalIndex? number' ∧
        table.longOrdinalize? number = table.longOrdinalize? number') ∧
      ∀ gender? gender?', (table.ordinalize? number gender?).map Term.name? =
        (table.ordinalize? number gender?').map Term.name? := by
  refine ⟨fun halike => ?_, table.map_name?_ordinalize? number⟩
  have hconfuses : table.Confuses number.natAbs number'.natAbs := by
    rcases halike with hsame | ⟨hlong, hlong', hdigits⟩ | ⟨hnone, hdigits⟩
    · exact ⟨congrArg (· % 100) hsame, .inl hsame⟩
    · exact ⟨hdigits, .inr (.inl ⟨hlong, hlong'⟩)⟩
    · exact ⟨hdigits, .inr (.inr hnone)⟩
  refine ⟨fun gender? => ?_, hconfuses.longOrdinalIndex?, ?_⟩
  · have hindex := hconfuses.ordinalIndex? gender?
    exact ⟨hindex, by rw [ordinalize?, ordinalize?, hindex]⟩
  · rw [longOrdinalize?, longOrdinalize?, hconfuses.longOrdinalIndex?]

/-- The least number of 64 bits ends in the digits of 108, and like this it is too long for a term
that is for the whole number 8. -/
theorem ordinals_depend_on_digits_of_least :
    (-9223372036854775808 : Int).natAbs = 2 ^ 63 ∧
      (ofTerms [(Term.named "ordinal-08").set "match" "whole-number",
        Term.named "ordinal-08"]).ordinalIndex? (-9223372036854775808) none = some 1 ∧
      (ofTerms [(Term.named "ordinal-08").set "match" "whole-number",
        Term.named "ordinal-08"]).ordinalIndex? 108 none = some 1 := by
  have hindex : (ofTerms [(Term.named "ordinal-08").set "match" "whole-number",
      Term.named "ordinal-08"]).ordinalIndex? 108 none = some 1 := by
    decide
  refine ⟨rfl, ?_, hindex⟩
  rw [← hindex]
  exact (((ordinals_depend_on_digits _ _ _).1
    (.inr (.inl ⟨by decide, by decide, by decide⟩))).1 none).1

end CitationLocale.TermTable
