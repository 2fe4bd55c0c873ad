import CitationLocale.Proofs.OrdinalChoice

/-!
# Names that stand for ordinal numbers

The class of a name agrees with the names under which ordinal terms are searched for: `ordinal`, and
a stem with the two ASCII digits of a number behind it. There is one kind of name besides: a short
stem with two decimal digits of which one is not ASCII counts as the general name, although no
search ever asks for it (`OrdinalClass.ofName?_classifies`).
-/

namespace CitationLocale

open Text

/-! ## Digits -/

namespace OrdinalClass

theorem isDecimalDigit_digitChar {d : Nat} (h : d < 10) :
    isDecimalDigit (Nat.digitChar d) = true := by
  interval_cases d <;> decide

/-- The digits of a number are decimal digits. -/
theorem isDecimalDigit_of_number? {a b : Char} {n : Nat} (h : number? (a, b) = some n) :
    isDecimalDigit a = true ∧ isDecimalDigit b = true := by
  obtain ⟨hn, rfl, rfl⟩ := number?_eq_some_iff.1 h
  exact ⟨isDecimalDigit_digitChar (by omega), isDecimalDigit_digitChar (by omega)⟩

theorem digits?_eq_some_none_iff {cs : List Char} : digits? cs = some none ↔ cs = [] := by
  unfold digits?
  split
  · simp
  · split_ifs <;> simp
  · next hnil _ => simpa using hnil

theorem digits?_eq_some_some_iff {cs : List Char} {a b : Char} :
    digits? cs = some (some (a, b)) ↔
      cs = ['-', a, b] ∧ isDecimalDigit a = true ∧ isDecimalDigit b = true := by
  unfold digits?
  split
  · simp
  · next c d =>
    split_ifs with hdigits
    · rw [Bool.and_eq_true] at hdigits
      simp only [Option.some.injEq, Prod.mk.injEq, List.cons.injEq, true_and, and_true]
      constructor
      · rintro ⟨rfl, rfl⟩
        exact ⟨⟨rfl, rfl⟩, hdigits⟩
      · exact fun h => h.1
    · simp only [List.cons.injEq, true_and, and_true, false_iff]
      rintro ⟨⟨rfl, rfl⟩, ha, hb⟩
      exact hdigits (by rw [ha, hb]; rfl)
  · next hpair =>
    simp only [reduceCtorEq, false_iff]
    rintro ⟨rfl, -⟩
    exact hpair a b rfl

/-! ## Stems -/

theorem ofList_shortStem (cs : List Char) :
    String.ofList (shortStem ++ '-' :: cs) = "ordinal-" ++ String.ofList cs := by
  rw [← String.toList_inj]
  simp [shortStem]

theorem ofList_longStem (cs : List Char) :
    String.ofList (longStem ++ '-' :: cs) = "long-ordinal-" ++ String.ofList cs := by
  rw [← String.toList_inj]
  simp [longStem, shortStem]

theorem exists_of_isPrefixOf {stem : List Char} {name : String}
    (h : stem.isPrefixOf name.toList = true) : ∃ cs, name = String.ofList (stem ++ cs) := by
  obtain ⟨cs, hcs⟩ := List.isPrefixOf_iff_prefix.1 h
  exact ⟨cs, by rw [hcs, String.ofList_toList]⟩

/-- What follows the stem of a long name says whether it is the word for a number. -/
theorem ofName?_long (cs : List Char) : ofName? (String.ofList (longStem ++ cs)) =
    (digits? cs).bind fun pair? => pair?.bind fun pair => (number? pair).map long := by
  have hstem : longStem.isPrefixOf (longStem ++ cs) = true :=
    List.isPrefixOf_iff_prefix.2 (List.prefix_append _ _)
  simp only [ofName?, String.toList_ofList, hstem, if_true, List.drop_left]
  rcases digits? cs with _ | _ | pair <;> rfl

/-- What follows the stem of a short name says for which number it is, if for any in particular. -/
theorem ofName?_short (cs : List Char) : ofName? (String.ofList (shortStem ++ cs)) =
    (digits? cs).map fun pair? => ((pair?.bind number?).map short).getD generic := by
  have hstem : shortStem.isPrefixOf (shortStem ++ cs) = true :=
    List.isPrefixOf_iff_prefix.2 (List.prefix_append _ _)
  -- a long name starts with another letter
  have hlong : longStem.isPrefixOf (shortStem ++ cs) = false := rfl
  simp only [ofName?, String.toList_ofList, hlong, hstem, if_true, List.drop_left,
    Bool.false_eq_true, if_false]
  rcases digits? cs with _ | _ | pair <;> rfl

theorem ofName?_eq_some_iff {name : String} {c : OrdinalClass} : ofName? name = some c ↔
    (name = "ordinal" ∧ c = generic) ∨
      (∃ a b, name = "ordinal-" ++ String.ofList [a, b] ∧
        (isDecimalDigit a = true ∧ isDecimalDigit b = true) ∧
        c = ((number? (a, b)).map short).getD generic) ∨
      ∃ a b n, name = "long-ordinal-" ++ String.ofList [a, b] ∧ number? (a, b) = some n ∧
        c = long n := by
  constructor
  · intro h
    by_cases hlong : longStem.isPrefixOf name.toList = true
    · obtain ⟨cs, rfl⟩ := exists_of_isPrefixOf hlong
      rw [ofName?_long] at h
      obtain ⟨pair?, hpair, hword⟩ := Option.bind_eq_some_iff.1 h
      obtain ⟨⟨a, b⟩, rfl, hnumber⟩ := Option.bind_eq_some_iff.1 hword
      obtain ⟨rfl, -⟩ := digits?_eq_some_some_iff.1 hpair
      obtain ⟨n, hn, rfl⟩ := Option.map_eq_some_iff.1 hnumber
      exact .inr (.inr ⟨a, b, n, ofList_longStem _, hn, rfl⟩)
    · by_cases hshort : shortStem.isPrefixOf name.toList = true
      · obtain ⟨cs, rfl⟩ := exists_of_isPrefixOf hshort
        rw [ofName?_short] at h
        obtain ⟨pair?, hpair, rfl⟩ := Option.map_eq_some_iff.1 h
        cases pair? with
        | none =>
          obtain rfl := digits?_eq_some_none_iff.1 hpair
          exact .inl ⟨rfl, rfl⟩
        | some pair =>
          obtain ⟨a, b⟩ := pair
          obtain ⟨rfl, hdigits⟩ := digits?_eq_some_some_iff.1 hpair
          exact .inr (.inl ⟨a, b, ofList_shortStem _, hdigits, rfl⟩)
      · simp [ofName?, hlong, hshort] at h
  · rintro (⟨rfl, rfl⟩ | ⟨a, b, rfl, hdigits, rfl⟩ | ⟨a, b, n, rfl, hn, rfl⟩)
    · rfl
    · have hpair := digits?_eq_some_some_iff.2 ⟨rfl, hdigits⟩
      rw [← ofList_shortStem, ofName?_short, hpair, Option.map_some, Option.bind_some]
    · have hpair := digits?_eq_some_some_iff.2 ⟨rfl, isDecimalDigit_of_number? hn⟩
      rw [← ofList_longStem, ofName?_long, hpair, Option.bind_some, Option.bind_some, hn,
        Option.map_some]

/-! ## Classes of names -/

/-- A short name with two decimal digits behind its stem, of whatever script. -/
def HasDigits (name : String) : Prop :=
  ∃ a b, name = "ordinal-" ++ String.ofList [a, b] ∧
    isDecimalDigit a = true ∧ isDecimalDigit b = true

/-- A short name whose two decimal digits are not the two ASCII digits of a number. -/
def HasForeignDigits (name : String) : Prop :=
  HasDigits name ∧ ∀ n < 100, name ≠ "ordinal-" ++ twoDigits n

variable {name : String} {n : Nat}

theorem ofName?_eq_short_iff :
    ofName? name = some (.short n) ↔ n < 100 ∧ name = "ordinal-" ++ twoDigits n := by
  rw [← spells_iff, ofName?_eq_some_iff]
  constructor
  · rintro (⟨-, h⟩ | ⟨a, b, rfl, -, h⟩ | ⟨_, _, _, -, -, h⟩)
    · cases h
    · cases hn : number? (a, b) with
      | none => simp [hn] at h
      | some m =>
        obtain rfl : n = m := by simpa [hn] using h
        exact ⟨a, b, rfl, hn⟩
    · cases h
  · rintro ⟨a, b, rfl, hn⟩
    exact .inr (.inl ⟨a, b, rfl, isDecimalDigit_of_number? hn, by rw [hn]; rfl⟩)

theorem ofName?_eq_long_iff :
    ofName? name = some (.long n) ↔ n < 100 ∧ name = "long-ordinal-" ++ twoDigits n := by
  rw [← spells_iff, ofName?_eq_some_iff]
  constructor
  · rintro (⟨-, h⟩ | ⟨a, b, -, -, h⟩ | ⟨a, b, m, rfl, hm, h⟩)
    · cases h
    · cases hn : number? (a, b) <;> simp [hn] at h
    · obtain rfl : n = m := by simpa using h
      exact ⟨a, b, rfl, hm⟩
  · rintro ⟨a, b, rfl, hn⟩
    exact .inr (.inr ⟨a, b, n, rfl, hn, rfl⟩)

/-- Digits that are those of no number leave the general class. -/
theorem ofName?_eq_generic_iff :
    ofName? name = some .generic ↔ name = "ordinal" ∨ HasForeignDigits name := by
  rw [ofName?_eq_some_iff]
  constructor
  · rintro (⟨rfl, -⟩ | ⟨a, b, rfl, hdigits, h⟩ | ⟨_, _, _, -, -, h⟩)
    · exact .inl rfl
    · refine .inr ⟨⟨a, b, rfl, hdigits⟩, fun n hn hname => ?_⟩
      have hshort := ofName?_eq_short_iff.2 ⟨hn, hname⟩
      have hgeneric := ofName?_eq_some_iff.2 (.inr (.inl ⟨a, b, rfl, hdigits, h⟩))
      cases hgeneric.symm.trans hshort
    · cases h
  · rintro (rfl | ⟨⟨a, b, rfl, hdigits⟩, hforeign⟩)
    · exact .inl ⟨rfl, rfl⟩
    · refine .inr (.inl ⟨a, b, rfl, hdigits, ?_⟩)
      cases hn : number? (a, b) with
      | none => rfl
      | some n =>
        obtain ⟨hlt, hname⟩ := spells_iff.1 ⟨a, b, rfl, hn⟩
        exact absurd hname (hforeign n hlt)

theorem ofName?_eq_none_iff : ofName? name = none ↔
    name ≠ "ordinal" ∧ ¬ HasDigits name ∧ ∀ n < 100, name ≠ "long-ordinal-" ++ twoDigits n := by
  have hshort (h : HasDigits name) : ofName? name ≠ none := by
    obtain ⟨a, b, rfl, hdigits⟩ := h
    have hclass := ofName?_eq_some_iff.2 (.inr (.inl ⟨a, b, rfl, hdigits, rfl⟩))
    rw [hclass]
    exact Option.some_ne_none _
  constructor
  · intro h
    refine ⟨?_, fun hdigits => hshort hdigits h, fun n hn hname => ?_⟩
    · rintro rfl
      simp [ofName?_eq_generic_iff.2 (.inl rfl)] at h
    · simp [ofName?_eq_long_iff.2 ⟨hn, hname⟩] at h
  · rintro ⟨hgeneral, hdigits, hlong⟩
    cases hclass : ofName? name with
    | none => rfl
    | some c =>
      rcases ofName?_eq_some_iff.1 hclass with ⟨h, -⟩ | ⟨a, b, h, hab, -⟩ | ⟨a, b, n, h, hn, -⟩
      · exact absurd h hgeneral
      · exact absurd ⟨a, b, h, hab⟩ hdigits
      · obtain ⟨hlt, hname⟩ := spells_iff.1 ⟨a, b, h, hn⟩
        exact absurd hname (hlong n hlt)

/-- The class of a name says what the name is: it is general for `ordinal`, and that of a number for
a stem with the two ASCII digits of the number, and no other name has a class. -/
structure IsExact (name : String) : Prop where
  generic : ofName? name = some .generic ↔ name = "ordinal"
  short (n : Nat) : ofName? name = some (.short n) ↔ n < 100 ∧ name = "ordinal-" ++ twoDigits n
  long (n : Nat) : ofName? name = some (.long n) ↔ n < 100 ∧ name = "long-ordinal-" ++ twoDigits n
  none : ofName? name = none ↔ name ≠ "ordinal" ∧
    ∀ n < 100, name ≠ "ordinal-" ++ twoDigits n ∧ name ≠ "long-ordinal-" ++ twoDigits n

theorem HasDigits.ne_ordinal (h : HasDigits name) : name ≠ "ordinal" := by
  obtain ⟨a, b, rfl, -⟩ := h
  intro heq
  have hlength : "ordinal-".length + 2 = "ordinal".length := by
    simpa using congrArg String.length heq
  exact absurd hlength (by decide)

theorem hasDigits_of_number (h : name = "ordinal-" ++ twoDigits n) (hn : n < 100) :
    HasDigits name := by
  obtain ⟨a, b, hname, hnumber⟩ := spells_iff.2 ⟨hn, h⟩
  exact ⟨a, b, hname, isDecimalDigit_of_number? hnumber⟩

/-- The class of a name is wrong only if its digits are those of no number. -/
theorem isExact_iff : IsExact name ↔ ¬ HasForeignDigits name := by
  constructor
  · intro h hforeign
    have hgeneric : ofName? name = some .generic := ofName?_eq_generic_iff.2 (.inr hforeign)
    exact hforeign.1.ne_ordinal (h.generic.1 hgeneric)
  · intro hforeign
    refine ⟨?_, fun _ => ofName?_eq_short_iff, fun _ => ofName?_eq_long_iff, ?_⟩
    · rw [ofName?_eq_generic_iff, or_iff_left hforeign]
    · have hdigits : ¬ HasDigits name ↔ ∀ n < 100, name ≠ "ordinal-" ++ twoDigits n := by
        constructor
        · exact fun h n hn hname => h (hasDigits_of_number hname hn)
        · exact fun h hname => hforeign ⟨hname, h⟩
      rw [ofName?_eq_none_iff, hdigits, ← forall₂_and]

end OrdinalClass

/-! ## Terms that can be selected -/

namespace Term

variable {t : Term}

/-- There are a table, a number and a gender for which the term is the ending or the word that is
found. -/
def IsSelectable (t : Term) : Prop :=
  ∃ (table : TermTable) (number : Int) (gender? : Option Gender),
    table.ordinalize? number gender? = some t ∨ table.longOrdinalize? number = some t

/-- The names under which ordinal terms are searched for. -/
def HasSearchedName (t : Term) : Prop :=
  t.name? = some "ordinal" ∨ ∃ n < 100, t.name? = some ("ordinal-" ++ twoDigits n) ∨
    t.name? = some ("long-ordinal-" ++ twoDigits n)

theorem AppliesTo.hasSearchedName {n : Nat} (h : t.AppliesTo n) : t.HasSearchedName := by
  rcases h.name with h | h | h
  · exact .inr ⟨n % 100, by omega, .inl h⟩
  · exact .inr ⟨n % 10, by omega, .inl h⟩
  · exact .inl h

theorem IsWordFor.hasSearchedName {n : Nat} (h : t.IsWordFor n) : t.HasSearchedName :=
  .inr ⟨n % 100, by omega, .inr (isWordFor_iff.1 h).1⟩

end Term

namespace TermTable

variable {table : TermTable} {number : Int} {gender? : Option Gender} {t : Term}

theorem hasSearchedName_of_ordinalize? (h : table.ordinalize? number gender? = some t) :
    t.HasSearchedName := by
  obtain ⟨i, hi, ht⟩ := Option.bind_eq_some_iff.1 h
  obtain ⟨u, hu, happlies⟩ := appliesTo_of_ordinalIndex? rfl hi
  obtain rfl : u = t := Option.some.inj (hu.symm.trans ht)
  exact happlies.hasSearchedName

theorem hasSearchedName_of_longOrdinalize? (h : table.longOrdinalize? number = some t) :
    t.HasSearchedName := by
  obtain ⟨i, hi, ht⟩ := Option.bind_eq_some_iff.1 h
  rcases longOrdinalIndex?_eq_some_iff.1 hi with hword | ⟨-, hending⟩
  · obtain ⟨u, hu, hword⟩ := hword.holds
    obtain rfl : u = t := Option.some.inj (hu.symm.trans ht)
    exact hword.hasSearchedName
  · exact hasSearchedName_of_ordinalize? (Option.bind_eq_some_iff.2 ⟨i, hending, ht⟩)

/-- The only term of a table is found if it applies. -/
theorem ordinalize?_singleton (h : t.AppliesTo number.natAbs) :
    (ofTerms [t]).ordinalize? number gender? = some t := by
  cases hindex : (ofTerms [t]).ordinalIndex? number gender? with
  | none => exact absurd h ((ordinalIndex?_eq_none_iff rfl).1 hindex t List.mem_cons_self)
  | some i =>
    obtain ⟨u, hu, -⟩ := appliesTo_of_ordinalIndex? rfl hindex
    obtain rfl := List.mem_singleton.1 (List.mem_of_getElem? hu)
    exact Option.bind_eq_some_iff.2 ⟨i, hindex, hu⟩

/-- The only term of a table is found if it is the word for a number. -/
theorem longOrdinalize?_singleton (h : t.IsWordFor number.natAbs) :
    (ofTerms [t]).longOrdinalize? number = some t := by
  let name := "long-ordinal-" ++ twoDigits (number.natAbs % 100)
  cases hnamed : (ofTerms [t]).ordinalNamed? name none (acceptsLastTwo number.natAbs) with
  | none =>
    have hnot := ordinalNamed?_eq_none_iff.1 hnamed t List.mem_cons_self
    exact absurd (Term.isWordFor_iff.1 h) hnot
  | some i =>
    obtain ⟨u, hu, -⟩ := (ordinalNamed?_eq_some_iff.1 hnamed).holds
    obtain rfl := List.mem_singleton.1 (List.mem_of_getElem? hu)
    have hindex : (ofTerms [u]).longOrdinalIndex? number = some i :=
      Option.or_eq_some_iff.2 (.inl hnamed)
    exact Option.bind_eq_some_iff.2 ⟨i, hindex, hu⟩

end TermTable

namespace Term

variable {t : Term}

theorem isSelectable_iff : t.IsSelectable ↔ t.HasSearchedName := by
  constructor
  · rintro ⟨table, number, gender?, h | h⟩
    · exact TermTable.hasSearchedName_of_ordinalize? h
    · exact TermTable.hasSearchedName_of_longOrdinalize? h
  · rintro (hname | ⟨n, hn, hname | hname⟩)
    · exact ⟨.ofTerms [t], 0, none, .inl (TermTable.ordinalize?_singleton (.inl hname))⟩
    · -- a number below one hundred is its own last two digits, so every match rule admits it
      have hmatches : MatchesDigits t.ordinalMatch? n n := by
        unfold MatchesDigits
        split
        · rfl
        · exact Nat.mod_eq_of_lt hn
        · exact .inl (Nat.mod_eq_of_lt hn)
      have happlies : t.AppliesTo n := (appliesTo_of_digits hn hname).2 hmatches
      exact ⟨.ofTerms [t], n, none, .inl (TermTable.ordinalize?_singleton happlies)⟩
    · have hdigits : n % 100 = n := Nat.mod_eq_of_lt hn
      have hword : t.IsWordFor n :=
        ⟨_, hname, spells_iff.2 ⟨by omega, by rw [hdigits]⟩, fun _ => hdigits.symm⟩
      exact ⟨.ofTerms [t], n, none, .inr (TermTable.longOrdinalize?_singleton hword)⟩

/-- A term counts as ordinal if it can be selected by its name, or if its name ends in digits that
are those of no number. -/
theorem isOrdinal_iff : t.isOrdinal = true ↔
    t.HasSearchedName ∨ ∃ name, t.name? = some name ∧ OrdinalClass.HasForeignDigits name := by
  cases hname : t.name? with
  | none => simp [isOrdinal, ordinalClass?, HasSearchedName, hname]
  | some name =>
    have hclass : t.isOrdinal = true ↔ ∃ c, OrdinalClass.ofName? name = some c := by
      rw [isOrdinal, ordinalClass?, hname, Option.bind_some, Option.isSome_iff_exists]
    rw [hclass]
    simp only [HasSearchedName, hname, Option.some.injEq, exists_eq_left']
    constructor
    · rintro ⟨_ | n | n, hc⟩
      · exact (OrdinalClass.ofName?_eq_generic_iff.1 hc).imp_left .inl
      · obtain ⟨hn, h⟩ := OrdinalClass.ofName?_eq_short_iff.1 hc
        exact .inl (.inr ⟨n, hn, .inl h⟩)
      · obtain ⟨hn, h⟩ := OrdinalClass.ofName?_eq_long_iff.1 hc
        exact .inl (.inr ⟨n, hn, .inr h⟩)
    · rintro ((h | ⟨n, hn, h | h⟩) | h)
      · exact ⟨_, OrdinalClass.ofName?_eq_generic_iff.2 (.inl h)⟩
      · exact ⟨_, OrdinalClass.ofName?_eq_short_iff.2 ⟨hn, h⟩⟩
      · exact ⟨_, OrdinalClass.ofName?_eq_long_iff.2 ⟨hn, h⟩⟩
      · exact ⟨_, OrdinalClass.ofName?_eq_generic_iff.2 (.inr h)⟩

/-- No search asks for digits that are those of no number. -/
theorem HasSearchedName.not_hasForeignDigits {name : String} (h : t.HasSearchedName)
    (hname : t.name? = some name) : ¬ OrdinalClass.HasForeignDigits name := by
  intro hforeign
  have hgeneric := OrdinalClass.ofName?_eq_generic_iff.2 (.inr hforeign)
  rw [HasSearchedName, hname] at h
  simp only [Option.some.injEq] at h
  rcases h with h | ⟨n, hn, h | h⟩
  · exact hforeign.1.ne_ordinal h
  · exact hforeign.2 n hn h
  · cases hgeneric.symm.trans (OrdinalClass.ofName?_eq_long_iff.2 ⟨hn, h⟩)

/-- Counting as ordinal means that a term can be selected, unless its name has digits that are those
of no number. -/
theorem isOrdinal_iff_isSelectable_iff : (t.isOrdinal = true ↔ t.IsSelectable) ↔
    ∀ name, t.name? = some name → ¬ OrdinalClass.HasForeignDigits name := by
  rw [isSelectable_iff, isOrdinal_iff]
  constructor
  · intro h name hname hforeign
    exact (h.1 (.inr ⟨name, hname, hforeign⟩)).not_hasForeignDigits hname hforeign
  · intro h
    refine or_iff_left ?_
    rintro ⟨name, hname, hforeign⟩
    exact h name hname hforeign

end Term

namespace OrdinalClass

/-- The class of a name is exact, unless the name is a short one with decimal digits that are those
of no number. Such a name is general. A term can be selected for a number by its name just when
the name is one of those that are searched for, and this is what counting as ordinal means, unless
the name has such digits. -/
theorem ofName?_classifies (name : String) (t : Term) :
    (IsExact name ↔ ¬ HasForeignDigits name) ∧
      (ofName? name = some .generic ↔ name = "ordinal" ∨ HasForeignDigits name) ∧
      (t.IsSelectable ↔ t.HasSearchedName) ∧
      ((t.isOrdinal = true ↔ t.IsSelectable) ↔
        ∀ name, t.name? = some name → ¬ HasForeignDigits name) :=
  ⟨isExact_iff, ofName?_eq_generic_iff, Term.isSelectable_iff, Term.isOrdinal_iff_isSelectable_iff⟩

/-- Arabic digits behind a short stem make a name general that is not `ordinal`, and no search finds
a term with this name. -/
theorem ofName?_of_arabic_digits :
    ofName? "ordinal-\u0661\u0662" = some .generic ∧ "ordinal-\u0661\u0662" ≠ "ordinal" ∧
      (Term.named "ordinal-\u0661\u0662").isOrdinal = true ∧
      ¬ (Term.named "ordinal-\u0661\u0662").IsSelectable := by
  have hclass : ofName? "ordinal-\u0661\u0662" = some .generic := by decide
  have hname : (Term.named "ordinal-\u0661\u0662").name? = some "ordinal-\u0661\u0662" := by decide
  have hne : "ordinal-\u0661\u0662" ≠ "ordinal" := by decide
  have hforeign := (ofName?_eq_generic_iff.1 hclass).resolve_left hne
  refine ⟨hclass, hne, by decide, fun h => ?_⟩
  exact (Term.isSelectable_iff.1 h).not_hasForeignDigits hname hforeign

end OrdinalClass

end CitationLocale
