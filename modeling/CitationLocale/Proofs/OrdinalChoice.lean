import Mathlib.Tactic.IntervalCases
import CitationLocale.Proofs.BestFit
import CitationLocale.TermTable.Ordinal

/-!
# The choice of an ordinal term

Which term of a table stands for an ordinal number. A name is looked up twice with different rules,
once for the last two digits of the number and once for the last digit; together they cover just the
terms that apply to the number (`Term.AppliesTo`). Of these one with the most specific name is
taken, and of those with one name the gender decides (`TermTable.ordinals_most_specific`).
-/

namespace CitationLocale

open Text

/-! ## Names that end in two digits -/

/-- A name is a stem with the two ASCII digits of a number behind it. -/
def Spells (stem : String) (nn : Nat) (name : String) : Prop :=
  ∃ a b, name = stem ++ String.ofList [a, b] ∧ OrdinalClass.number? (a, b) = some nn

theorem asciiDigit?_eq_some_iff {c : Char} {d : Nat} :
    asciiDigit? c = some d ↔ d < 10 ∧ c = Nat.digitChar d := by
  constructor
  · intro h
    unfold asciiDigit? at h
    split_ifs at h with hc
    obtain ⟨hlow, hhigh⟩ := hc
    have hlow : 48 ≤ c.toNat := hlow
    have hhigh : c.toNat ≤ 57 := hhigh
    have hd : c.toNat - 48 = d := Option.some.inj h
    have hlt : d < 10 := by omega
    have hcode : c = Char.ofNat (48 + d) := by
      rw [← Char.ofNat_toNat c]
      congr 1
      omega
    refine ⟨hlt, hcode.trans ?_⟩
    interval_cases d <;> rfl
  · rintro ⟨hd, rfl⟩
    interval_cases d <;> rfl

theorem number?_eq_some_iff {a b : Char} {nn : Nat} : OrdinalClass.number? (a, b) = some nn ↔
    nn < 100 ∧ a = Nat.digitChar (nn / 10) ∧ b = Nat.digitChar (nn % 10) := by
  simp only [OrdinalClass.number?, Option.bind_eq_bind, Option.bind_eq_some_iff,
    asciiDigit?_eq_some_iff, Option.pure_def, Option.some.injEq]
  constructor
  · rintro ⟨x, ⟨hx, rfl⟩, y, ⟨hy, rfl⟩, rfl⟩
    have hdiv : (10 * x + y) / 10 = x := by omega
    have hmod : (10 * x + y) % 10 = y := by omega
    exact ⟨by omega, by rw [hdiv], by rw [hmod]⟩
  · rintro ⟨hnn, rfl, rfl⟩
    exact ⟨nn / 10, ⟨by omega, rfl⟩, nn % 10, ⟨by omega, rfl⟩, by omega⟩

theorem spells_iff {stem name : String} {nn : Nat} :
    Spells stem nn name ↔ nn < 100 ∧ name = stem ++ twoDigits nn := by
  simp only [Spells, number?_eq_some_iff, twoDigits]
  constructor
  · rintro ⟨a, b, rfl, hnn, rfl, rfl⟩
    exact ⟨hnn, rfl⟩
  · rintro ⟨hnn, rfl⟩
    exact ⟨_, _, rfl, hnn, rfl, rfl⟩

/-- A name ends in the digits of one number only. -/
theorem Spells.unique {stem name : String} {m n : Nat} (hm : Spells stem m name)
    (hn : Spells stem n name) : m = n := by
  obtain ⟨a, b, rfl, hm⟩ := hm
  obtain ⟨c, d, hname, hn⟩ := hn
  have hchars : [a, b] = [c, d] := by
    have := congrArg String.toList hname
    simpa using this
  obtain ⟨rfl, rfl⟩ : a = c ∧ b = d := by simpa using hchars
  exact Option.some.inj (hm.symm.trans hn)

/-! ## Terms that apply to a number -/

/-- The numbers for which a term with the digits `nn` in its name can be used, by its match rule. -/
def MatchesDigits (rule? : Option OrdinalMatch) (n nn : Nat) : Prop :=
  match rule? with
  | some .wholeNumber => n = nn
  | some .lastTwoDigits => n % 100 = nn
  | _ => n % 100 = nn ∨ n % 10 = nn

/-- A term applies to a number: it is the general one, or its digits match the number. -/
def Term.AppliesTo (t : Term) (n : Nat) : Prop :=
  t.name? = some "ordinal" ∨
    ∃ name nn, t.name? = some name ∧ Spells "ordinal-" nn name ∧
      MatchesDigits t.ordinalMatch? n nn

/-- A term is the word for a number. -/
def Term.IsWordFor (t : Term) (n : Nat) : Prop :=
  ∃ name, t.name? = some name ∧ Spells "long-ordinal-" (n % 100) name ∧
    (t.ordinalMatch? = some .wholeNumber → n = n % 100)

/-- How general the name of a term that applies to a number is: it has the last two digits of the
number, the last digit, or no digits. -/
def Term.generality (t : Term) (n : Nat) : Nat :=
  if t.name? = some ("ordinal-" ++ twoDigits (n % 100)) then 0
  else if t.name? = some ("ordinal-" ++ twoDigits (n % 10)) then 1
  else 2

theorem matchesDigits_lastTwo {rule? : Option OrdinalMatch} {n : Nat} :
    MatchesDigits rule? n (n % 100) ↔ TermTable.acceptsLastTwo n rule? = true := by
  rcases rule? with _ | _ | _ | _ <;> simp [MatchesDigits, TermTable.acceptsLastTwo]

theorem matchesDigits_last {rule? : Option OrdinalMatch} {n : Nat} (h : n % 100 ≠ n % 10) :
    MatchesDigits rule? n (n % 10) ↔ TermTable.acceptsLast n rule? = true := by
  rcases rule? with _ | _ | _ | _ <;> simp [MatchesDigits, TermTable.acceptsLast, h]

/-- For a number with one digit, what the last digit is used for the last two are used for. -/
theorem acceptsLastTwo_of_acceptsLast {rule? : Option OrdinalMatch} {n : Nat}
    (h : n % 100 = n % 10) (haccepts : TermTable.acceptsLast n rule? = true) :
    TermTable.acceptsLastTwo n rule? = true := by
  rcases rule? with _ | _ | _ | _
  · rfl
  · rfl
  · rfl
  · rw [TermTable.acceptsLastTwo, h]
    exact haccepts

namespace Term

variable {t : Term} {n : Nat}

theorem appliesTo_of_digits {nn : Nat} (hnn : nn < 100)
    (hname : t.name? = some ("ordinal-" ++ twoDigits nn)) :
    t.AppliesTo n ↔ MatchesDigits t.ordinalMatch? n nn := by
  have hspells : Spells "ordinal-" nn ("ordinal-" ++ twoDigits nn) := spells_iff.2 ⟨hnn, rfl⟩
  constructor
  · rintro (hgeneral | ⟨name, mm, hname', hspells', hmatches⟩)
    · have hchars : "ordinal" = "ordinal-" ++ twoDigits nn :=
        Option.some.inj (hgeneral.symm.trans hname)
      have hlength : "ordinal".length = "ordinal-".length + 2 := by
        simpa [twoDigits] using congrArg String.length hchars
      exact absurd hlength (by decide)
    · obtain rfl : name = _ := Option.some.inj (hname'.symm.trans hname)
      rwa [hspells'.unique hspells] at hmatches
  · exact fun h => .inr ⟨_, nn, hname, hspells, h⟩

/-- A term that applies to a number has one of three names. -/
theorem AppliesTo.name (h : t.AppliesTo n) :
    t.name? = some ("ordinal-" ++ twoDigits (n % 100)) ∨
      t.name? = some ("ordinal-" ++ twoDigits (n % 10)) ∨ t.name? = some "ordinal" := by
  rcases h with hgeneral | ⟨name, nn, hname, hspells, hmatches⟩
  · exact .inr (.inr hgeneral)
  · obtain ⟨hnn, rfl⟩ := spells_iff.1 hspells
    have hdigits : n % 100 = nn ∨ n % 10 = nn := by
      unfold MatchesDigits at hmatches
      split at hmatches
      · exact .inl (by omega)
      · exact .inl hmatches
      · exact hmatches
    rcases hdigits with rfl | rfl
    · exact .inl hname
    · exact .inr (.inl hname)

/-- A term applies to a number under a name. -/
def AppliesAs (t : Term) (n : Nat) (name : String) : Prop :=
  t.AppliesTo n ∧ t.name? = some name

theorem appliesAs_lastTwo : t.AppliesAs n ("ordinal-" ++ twoDigits (n % 100)) ↔
    t.name? = some ("ordinal-" ++ twoDigits (n % 100)) ∧
      TermTable.acceptsLastTwo n t.ordinalMatch? = true := by
  rw [AppliesAs, and_comm, ← matchesDigits_lastTwo]
  exact and_congr_right fun hname => appliesTo_of_digits (by omega) hname

/-- Where the last two digits have no term, the second rule selects what applies by its last digit:
if both digits are one name, there is nothing. -/
theorem appliesAs_last (hnone : ¬ t.AppliesAs n ("ordinal-" ++ twoDigits (n % 100))) :
    t.AppliesAs n ("ordinal-" ++ twoDigits (n % 10)) ↔
      t.name? = some ("ordinal-" ++ twoDigits (n % 10)) ∧
        TermTable.acceptsLast n t.ordinalMatch? = true := by
  by_cases hdigits : n % 100 = n % 10
  · rw [hdigits] at hnone
    refine iff_of_false hnone fun ⟨hname, haccepts⟩ => hnone ?_
    rw [← hdigits] at hname ⊢
    exact appliesAs_lastTwo.2 ⟨hname, acceptsLastTwo_of_acceptsLast hdigits haccepts⟩
  · rw [AppliesAs, and_comm, ← matchesDigits_last hdigits]
    exact and_congr_right fun hname => appliesTo_of_digits (by omega) hname

theorem appliesAs_ordinal : t.AppliesAs n "ordinal" ↔ t.name? = some "ordinal" :=
  ⟨And.right, fun h => ⟨.inl h, h⟩⟩

theorem isWordFor_iff : t.IsWordFor n ↔
    t.name? = some ("long-ordinal-" ++ twoDigits (n % 100)) ∧
      TermTable.acceptsLastTwo n t.ordinalMatch? = true := by
  have haccepts : TermTable.acceptsLastTwo n t.ordinalMatch? = true ↔
      (t.ordinalMatch? = some .wholeNumber → n = n % 100) := by
    rcases t.ordinalMatch? with _ | _ | _ | _ <;> simp [TermTable.acceptsLastTwo]
  simp only [IsWordFor, spells_iff, haccepts]
  constructor
  · rintro ⟨name, hname, ⟨-, rfl⟩, h⟩
    exact ⟨hname, h⟩
  · rintro ⟨hname, h⟩
    exact ⟨_, hname, ⟨by omega, rfl⟩, h⟩

theorem generality_of_lastTwo (h : t.name? = some ("ordinal-" ++ twoDigits (n % 100))) :
    t.generality n = 0 :=
  if_pos h

theorem generality_le_one (h : t.name? = some ("ordinal-" ++ twoDigits (n % 10))) :
    t.generality n ≤ 1 := by
  rw [generality, if_pos h]
  split_ifs <;> omega

theorem generality_le_two (t : Term) : t.generality n ≤ 2 := by
  unfold generality
  split_ifs <;> omega

theorem one_le_generality (h : t.name? ≠ some ("ordinal-" ++ twoDigits (n % 100))) :
    1 ≤ t.generality n := by
  rw [generality, if_neg h]
  split_ifs <;> omega

theorem two_le_generality (h : t.name? ≠ some ("ordinal-" ++ twoDigits (n % 100)))
    (h' : t.name? ≠ some ("ordinal-" ++ twoDigits (n % 10))) : 2 ≤ t.generality n := by
  rw [generality, if_neg h, if_neg h']

end Term

/-! ## The preferred gender -/

namespace TermTable

variable {table : TermTable} {gender? : Option Gender} {P Q : Term → Prop} {i : Nat}

/-- Of the terms with a property, the first one for a gender is preferred, else the first one for no
gender in particular, else the first one. -/
def IsPreferred (table : TermTable) (gender? : Option Gender) (P : Term → Prop) (i : Nat) : Prop :=
  table.IsFirst (fun t => P t ∧ t.genderForm? = gender?) i ∨
    (∀ t ∈ table.terms, ¬ (P t ∧ t.genderForm? = gender?)) ∧
      (table.IsFirst (fun t => P t ∧ t.genderForm? = none) i ∨
        (∀ t ∈ table.terms, ¬ (P t ∧ t.genderForm? = none)) ∧ table.IsFirst P i)

theorem IsPreferred.holds (h : table.IsPreferred gender? P i) :
    ∃ t, table.terms[i]? = some t ∧ P t := by
  rcases h with ⟨⟨t, ht, hP, -⟩, -⟩ | ⟨-, ⟨⟨t, ht, hP, -⟩, -⟩ | ⟨-, ⟨t, ht, hP⟩, -⟩⟩
  · exact ⟨t, ht, hP⟩
  · exact ⟨t, ht, hP⟩
  · exact ⟨t, ht, hP⟩

theorem isPreferred_congr (hPQ : ∀ t ∈ table.terms, P t ↔ Q t) :
    table.IsPreferred gender? P i ↔ table.IsPreferred gender? Q i := by
  have hgender (g? : Option Gender) :
      ∀ t ∈ table.terms, (P t ∧ t.genderForm? = g?) ↔ (Q t ∧ t.genderForm? = g?) :=
    fun t ht => and_congr_left' (hPQ t ht)
  have hnone (g? : Option Gender) : (∀ t ∈ table.terms, ¬ (P t ∧ t.genderForm? = g?)) ↔
      ∀ t ∈ table.terms, ¬ (Q t ∧ t.genderForm? = g?) :=
    forall₂_congr fun t ht => not_congr (hgender g? t ht)
  unfold IsPreferred
  rw [isFirst_congr (hgender gender?), hnone gender?, isFirst_congr (hgender none), hnone none,
    isFirst_congr hPQ]

section

variable {name : String} {accepts : Option OrdinalMatch → Bool}

/-- The term with a name is searched for in three passes. -/
theorem ordinalNamed?_eq (table : TermTable) (name : String) (gender? : Option Gender)
    (accepts : Option OrdinalMatch → Bool) : table.ordinalNamed? name gender? accepts =
      (table.terms.findIdx? fun t =>
        (t.name? == some name && accepts t.ordinalMatch?) && t.genderForm? == gender?).or
      ((table.terms.findIdx? fun t =>
        (t.name? == some name && accepts t.ordinalMatch?) && t.genderForm? == none).or
      (table.terms.findIdx? fun t => t.name? == some name && accepts t.ordinalMatch?)) := by
  let test (t : Term) : Bool := t.name? == some name && accepts t.ordinalMatch?
  have hgender (g? : Option Gender) :
      ((table.candidates test).find? fun c => c.1.genderForm? == g?).map Prod.snd =
        table.terms.findIdx? fun t => test t && t.genderForm? == g? :=
    map_find?_candidates test fun t => t.genderForm? == g?
  rw [← hgender, ← hgender, ← map_head?_candidates, ← Option.map_or, ← Option.map_or,
    ← Option.or_assoc]
  rfl

theorem ordinalNamed?_eq_some_iff : table.ordinalNamed? name gender? accepts = some i ↔
    table.IsPreferred gender?
      (fun t => t.name? = some name ∧ accepts t.ordinalMatch? = true) i := by
  rw [ordinalNamed?_eq]
  simp only [Option.or_eq_some_iff, findIdx?_eq_some_iff, findIdx?_eq_none_iff, Bool.and_eq_true,
    beq_iff_eq, IsPreferred]

theorem ordinalNamed?_eq_none_iff : table.ordinalNamed? name gender? accepts = none ↔
    ∀ t ∈ table.terms, ¬ (t.name? = some name ∧ accepts t.ordinalMatch? = true) := by
  rw [ordinalNamed?_eq]
  simp only [Option.or_eq_none_iff, findIdx?_eq_none_iff, Bool.and_eq_true, beq_iff_eq]
  exact ⟨fun h => h.2.2, fun h => ⟨fun t ht ht' => h t ht ht'.1, fun t ht ht' => h t ht ht'.1, h⟩⟩

end

/-! ## The choice -/

variable {number : Int}

/-- A place is that of the best term for a number: the term applies to the number, none that applies
has a more specific name, and it is the preferred one of those that apply under its name. -/
def IsBestOrdinal (table : TermTable) (n : Nat) (gender? : Option Gender) (i : Nat) : Prop :=
  ∃ t, table.terms[i]? = some t ∧ t.AppliesTo n ∧
    (∀ u ∈ table.terms, u.AppliesTo n → t.generality n ≤ u.generality n) ∧
    table.IsPreferred gender? (fun u => u.AppliesTo n ∧ u.name? = t.name?) i

section

variable {n : Nat} (hn : number.natAbs = n)
include hn

/-- The three names are tried one after the other, and under each the terms that apply. -/
theorem ordinalIndex?_eq_some_iff_appliesAs : table.ordinalIndex? number gender? = some i ↔
    table.IsPreferred gender? (·.AppliesAs n ("ordinal-" ++ twoDigits (n % 100))) i ∨
    (∀ t ∈ table.terms, ¬ t.AppliesAs n ("ordinal-" ++ twoDigits (n % 100))) ∧
    (table.IsPreferred gender? (·.AppliesAs n ("ordinal-" ++ twoDigits (n % 10))) i ∨
    (∀ t ∈ table.terms, ¬ t.AppliesAs n ("ordinal-" ++ twoDigits (n % 10))) ∧
    table.IsPreferred gender? (·.AppliesAs n "ordinal") i) := by
  simp only [ordinalIndex?, hn, Option.or_assoc, Option.or_eq_some_iff,
    ordinalNamed?_eq_some_iff, ordinalNamed?_eq_none_iff, ← Term.appliesAs_lastTwo,
    Term.appliesAs_ordinal, and_true]
  refine or_congr_right (and_congr_right fun hlastTwo => ?_)
  have hlast : ∀ t ∈ table.terms, _ := fun t ht => Term.appliesAs_last (hlastTwo t ht)
  rw [isPreferred_congr hlast, forall₂_congr fun t ht => not_congr (hlast t ht)]

theorem ordinalIndex?_eq_none_iff : table.ordinalIndex? number gender? = none ↔
    ∀ t ∈ table.terms, ¬ t.AppliesTo n := by
  simp only [ordinalIndex?, hn, Option.or_assoc, Option.or_eq_none_iff,
    ordinalNamed?_eq_none_iff, ← Term.appliesAs_lastTwo, and_true]
  constructor
  · rintro ⟨hlastTwo, hlast, hgeneral⟩ t ht happlies
    rcases happlies.name with hname | hname | hname
    · exact hlastTwo t ht ⟨happlies, hname⟩
    · exact hlast t ht ((Term.appliesAs_last (hlastTwo t ht)).1 ⟨happlies, hname⟩)
    · exact hgeneral t ht hname
  · intro h
    have hlastTwo : ∀ t ∈ table.terms, ¬ t.AppliesAs n ("ordinal-" ++ twoDigits (n % 100)) :=
      fun t ht happlies => h t ht happlies.1
    refine ⟨hlastTwo, fun t ht hlast => ?_, fun t ht hgeneral => h t ht (.inl hgeneral)⟩
    exact h t ht ((Term.appliesAs_last (hlastTwo t ht)).2 hlast).1

/-- What is found applies to the number. -/
theorem appliesTo_of_ordinalIndex? (h : table.ordinalIndex? number gender? = some i) :
    ∃ t, table.terms[i]? = some t ∧ t.AppliesTo n := by
  rcases (ordinalIndex?_eq_some_iff_appliesAs hn).1 h with h | ⟨-, h | ⟨-, h⟩⟩
  all_goals
    obtain ⟨t, ht, happlies⟩ := h.holds
    exact ⟨t, ht, happlies.1⟩

theorem ordinalIndex?_eq_some_iff : table.ordinalIndex? number gender? = some i ↔
    table.IsBestOrdinal n gender? i := by
  rw [ordinalIndex?_eq_some_iff_appliesAs hn]
  constructor
  · rintro (h | ⟨hlastTwo, h | ⟨hlast, h⟩⟩)
    · obtain ⟨t, ht, happlies, hname⟩ := h.holds
      refine ⟨t, ht, happlies, fun u _ _ => ?_, by rwa [hname]⟩
      exact Term.generality_of_lastTwo hname ▸ Nat.zero_le _
    · obtain ⟨t, ht, happlies, hname⟩ := h.holds
      refine ⟨t, ht, happlies, fun u hu hu' => ?_, by rwa [hname]⟩
      exact (Term.generality_le_one hname).trans
        (Term.one_le_generality fun hname => hlastTwo u hu ⟨hu', hname⟩)
    · obtain ⟨t, ht, happlies, hname⟩ := h.holds
      refine ⟨t, ht, happlies, fun u hu hu' => ?_, by rwa [hname]⟩
      exact t.generality_le_two.trans (Term.two_le_generality
        (fun hname => hlastTwo u hu ⟨hu', hname⟩) fun hname => hlast u hu ⟨hu', hname⟩)
  · rintro ⟨t, ht, happlies, hleast, hpreferred⟩
    by_cases hname : t.name? = some ("ordinal-" ++ twoDigits (n % 100))
    · rw [hname] at hpreferred
      exact .inl hpreferred
    have hlastTwo : ∀ u ∈ table.terms, ¬ u.AppliesAs n ("ordinal-" ++ twoDigits (n % 100)) := by
      rintro u hu ⟨hu', hname'⟩
      have hle := (Term.one_le_generality hname).trans (hleast u hu hu')
      rw [Term.generality_of_lastTwo hname'] at hle
      omega
    refine .inr ⟨hlastTwo, ?_⟩
    by_cases hname' : t.name? = some ("ordinal-" ++ twoDigits (n % 10))
    · rw [hname'] at hpreferred
      exact .inl hpreferred
    have hlast : ∀ u ∈ table.terms, ¬ u.AppliesAs n ("ordinal-" ++ twoDigits (n % 10)) := by
      rintro u hu ⟨hu', hname''⟩
      have hle := (Term.two_le_generality hname hname').trans (hleast u hu hu')
      have := Term.generality_le_one hname''
      omega
    have hgeneral : t.name? = some "ordinal" := by
      rcases happlies.name with h | h | h
      · exact absurd h hname
      · exact absurd h hname'
      · exact h
    rw [hgeneral] at hpreferred
    exact .inr ⟨hlast, hpreferred⟩

end

theorem longOrdinalIndex?_eq_some_iff : table.longOrdinalIndex? number = some i ↔
    table.IsPreferred none (·.IsWordFor number.natAbs) i ∨
      (∀ t ∈ table.terms, ¬ t.IsWordFor number.natAbs) ∧
        table.ordinalIndex? number none = some i := by
  simp only [longOrdinalIndex?, Option.or_eq_some_iff, ordinalNamed?_eq_some_iff,
    ordinalNamed?_eq_none_iff, Term.isWordFor_iff]

/-- No ending is found for a number exactly if no term applies to it, and otherwise the best one is
found. The word for a number is found likewise, and where there is none the ending of the
number. -/
theorem ordinals_most_specific (table : TermTable) (number : Int) (gender? : Option Gender) :
    (table.ordinalize? number gender? = none ↔
        ∀ t ∈ table.terms, ¬ t.AppliesTo number.natAbs) ∧
      (∀ i t, table.ordinalIndex? number gender? = some i ∧
          table.ordinalize? number gender? = some t ↔
        table.terms[i]? = some t ∧ table.IsBestOrdinal number.natAbs gender? i) ∧
      ∀ i t, table.longOrdinalIndex? number = some i ∧ table.longOrdinalize? number = some t ↔
        table.terms[i]? = some t ∧ (table.IsPreferred none (·.IsWordFor number.natAbs) i ∨
          (∀ u ∈ table.terms, ¬ u.IsWordFor number.natAbs) ∧
            table.ordinalIndex? number none = some i) := by
  refine ⟨?_, fun i t => ?_, fun i t => ?_⟩
  · refine (bind_getElem?_eq_none_iff fun i hi => ?_).trans (ordinalIndex?_eq_none_iff rfl)
    obtain ⟨t, ht, -⟩ := appliesTo_of_ordinalIndex? rfl hi
    exact ⟨t, ht⟩
  · rw [← ordinalIndex?_eq_some_iff rfl]
    exact bind_getElem?_eq_some_iff
  · rw [← longOrdinalIndex?_eq_some_iff]
    exact bind_getElem?_eq_some_iff

end TermTable

end CitationLocale
