import CitationLocale.Text.Lowering
import Mathlib.Data.List.Sort
import Mathlib.Data.List.TakeWhile

/-!
# Small and capital letters apart

The tables of small and of capital letters ascend, and so one walk along both shows that they have
no character in common (`isSmallLetter_of_isCapitalLetter`). On the first 128 characters the tables
come down to one run each, and the classes and the lowering are the usual ones (`letters_ascii`).
-/

namespace CitationLocale.Text

/-! ## Ascending tables -/

namespace CodeRange

variable {r s : CodeRange} {n : Nat}

theorem bounds_of_contains (h : r.contains n = true) : r.first ≤ n ∧ n ≤ r.last := by
  simp only [contains, Bool.and_eq_true, decide_eq_true_eq] at h
  exact h.1

/-- Whether no code point of the first run belongs to the second one. -/
def isApart (r s : CodeRange) : Bool :=
  (List.range' r.first (r.last + 1 - r.first)).all fun n => !(r.contains n && s.contains n)

theorem not_contains_of_isApart (h : r.isApart s = true) (hr : r.contains n = true) :
    s.contains n = false := by
  have hbounds := bounds_of_contains hr
  have hmem : n ∈ List.range' r.first (r.last + 1 - r.first) :=
    List.mem_range'_1.2 ⟨hbounds.1, by omega⟩
  simpa [hr] using List.all_eq_true.1 h n hmem

end CodeRange

/-- Whether two ascending tables have no code point in common. Runs that end before a run of the
first table are passed for good, and only those that begin before its end are looked at. -/
def areApart : List CodeRange → List CodeRange → Bool
  | [], _ => true
  | r :: rs, ss =>
    let later := ss.dropWhile (·.last < r.first)
    (later.takeWhile (·.first ≤ r.last)).all r.isApart && areApart rs later

/-- Whether every run of a table begins behind the beginnings of those before it. -/
def Ascends (rs : List CodeRange) : Prop :=
  (rs.map CodeRange.first).SortedLT

instance (rs : List CodeRange) : Decidable (Ascends rs) :=
  inferInstanceAs (Decidable (rs.map CodeRange.first).SortedLT)

theorem ascends_cons {r : CodeRange} {rs : List CodeRange} :
    Ascends (r :: rs) ↔ (∀ s ∈ rs, r.first < s.first) ∧ Ascends rs := by
  simp only [Ascends, List.sortedLT_iff_pairwise, List.pairwise_map, List.pairwise_cons]

theorem Ascends.dropWhile {rs : List CodeRange} (h : Ascends rs) (p : CodeRange → Bool) :
    Ascends (rs.dropWhile p) :=
  (h.pairwise.sublist ((List.dropWhile_sublist p).map _)).sortedLT

/-- In an ascending table the runs that begin at a code point or before it come first. -/
theorem Ascends.mem_takeWhile {ss : List CodeRange} (h : Ascends ss) {s : CodeRange}
    (hs : s ∈ ss) {n : Nat} (hn : s.first ≤ n) : s ∈ ss.takeWhile (·.first ≤ n) := by
  induction ss with
  | nil => exact absurd hs List.not_mem_nil
  | cons t ss ih =>
    obtain ⟨ht, hss⟩ := ascends_cons.1 h
    rcases List.mem_cons.1 hs with rfl | hs
    · rw [List.takeWhile_cons_of_pos (by simpa using hn)]
      exact List.mem_cons_self
    · have htn : t.first ≤ n := Nat.le_trans (Nat.le_of_lt (ht s hs)) hn
      rw [List.takeWhile_cons_of_pos (by simpa using htn)]
      exact List.mem_cons_of_mem t (ih hss hs)

/-- A run that ends at a code point or behind it is not among those passed before it. -/
theorem mem_dropWhile_of_le_last {ss : List CodeRange} {s : CodeRange} (hs : s ∈ ss) {n : Nat}
    (hn : n ≤ s.last) : s ∈ ss.dropWhile (·.last < n) := by
  rw [← List.takeWhile_append_dropWhile (p := (·.last < n)) (l := ss), List.mem_append] at hs
  refine hs.resolve_left fun htaken => ?_
  have hlast : s.last < n := by simpa using List.mem_takeWhile_imp htaken
  omega

theorem not_contains_of_areApart {rs ss : List CodeRange} (hrs : Ascends rs) (hss : Ascends ss)
    (h : areApart rs ss = true) {r s : CodeRange} (hr : r ∈ rs) (hs : s ∈ ss) {n : Nat}
    (hn : r.contains n = true) : s.contains n = false := by
  rw [← Bool.not_eq_true]
  intro hsn
  obtain ⟨hrfirst, hrlast⟩ := CodeRange.bounds_of_contains hn
  obtain ⟨hsfirst, hslast⟩ := CodeRange.bounds_of_contains hsn
  induction rs generalizing ss with
  | nil => exact absurd hr List.not_mem_nil
  | cons t rs ih =>
    obtain ⟨ht, hrs⟩ := ascends_cons.1 hrs
    simp only [areApart, Bool.and_eq_true] at h
    have htfirst : t.first ≤ r.first := by
      rcases List.mem_cons.1 hr with rfl | hr
      · exact Nat.le_refl _
      · exact Nat.le_of_lt (ht r hr)
    have hlater : s ∈ ss.dropWhile (·.last < t.first) := mem_dropWhile_of_le_last hs (by omega)
    have hssLater : Ascends (ss.dropWhile (·.last < t.first)) := hss.dropWhile _
    rcases List.mem_cons.1 hr with rfl | hr
    · have happart := List.all_eq_true.1 h.1 s (hssLater.mem_takeWhile hlater (by omega))
      rw [CodeRange.not_contains_of_isApart happart hn] at hsn
      exact absurd hsn Bool.false_ne_true
    · exact ih hrs hssLater h.2 hr hlater

/-! ## The letters -/

section Letters

variable {c : Char} {n : Nat}

/-- The tables of small and of capital letters have no character in common. -/
theorem isSmallLetter_of_isCapitalLetter (h : isCapitalLetter c = true) :
    isSmallLetter c = false := by
  have hcapitals : Ascends capitalLetterRanges := by decide +kernel
  have hsmalls : Ascends smallLetterRanges := by decide +kernel
  have happart : areApart capitalLetterRanges smallLetterRanges = true := by decide +kernel
  obtain ⟨r, hr, hcapital⟩ := List.any_eq_true.1 h
  rw [isSmallLetter, inRanges, List.any_eq_false]
  intro s hs
  rw [Bool.not_eq_true]
  exact not_contains_of_areApart hcapitals hsmalls happart hr hs hcapital

theorem CodeRange.contains_and_first_lt {k : Nat} (h : k < n) (r : CodeRange) :
    (r.first < n ∧ r.contains k) ↔ r.contains k := by
  simp only [CodeRange.contains]
  grind

/-- Runs that start behind a character do not matter for it. -/
theorem inRanges_filter (h : c.toNat < n) (rs : List CodeRange) :
    inRanges (rs.filter (·.first < n)) c = inRanges rs c := by
  rw [inRanges, List.any_filter, inRanges, Bool.eq_iff_iff]
  simp only [List.any_eq_true, Bool.and_eq_true, decide_eq_true_eq,
    CodeRange.contains_and_first_lt h]

theorem shiftIn_filter (h : c.toNat < n) (runs : List CaseRun) :
    shiftIn (runs.filter (·.source.first < n)) c = shiftIn runs c := by
  simp [shiftIn, List.find?_filter, CodeRange.contains_and_first_lt h]

/-- On the first 128 characters the classes of letters and the lowering are the usual ones. -/
theorem letters_ascii (h : c.toNat < 128) :
    isSmallLetter c = c.isLower ∧ isCapitalLetter c = c.isUpper ∧ lowerChar c = c.toLower := by
  have hsmall : smallLetterRanges.filter (·.first < 128) = [⟨0x61, 0x7A, 1⟩] := by decide +kernel
  have hcapital : capitalLetterRanges.filter (·.first < 128) = [⟨0x41, 0x5A, 1⟩] := by
    decide +kernel
  have hruns : (loweringRuns ++ recentLoweringRuns).filter (·.source.first < 128) =
      [⟨⟨0x41, 0x5A, 1⟩, 0x61⟩] := by
    decide +kernel
  have hall : ∀ n < 128, inRanges [⟨0x61, 0x7A, 1⟩] (Char.ofNat n) = (Char.ofNat n).isLower ∧
      inRanges [⟨0x41, 0x5A, 1⟩] (Char.ofNat n) = (Char.ofNat n).isUpper ∧
      shiftIn [⟨⟨0x41, 0x5A, 1⟩, 0x61⟩] (Char.ofNat n) = (Char.ofNat n).toLower := by
    decide +kernel
  rw [isSmallLetter, ← inRanges_filter h, hsmall, isCapitalLetter,
    ← inRanges_filter h capitalLetterRanges, hcapital, lowerChar, ← shiftIn_filter h, hruns]
  simpa using hall c.toNat h

/-- Lowering leaves no capital letter and changes nothing else. -/
theorem toLower_ascii (h : c.toNat < 128) : c.toLower.toNat < 128 ∧ c.toLower.isUpper = false ∧
    (c.isUpper = false → c.toLower = c) := by
  have hall : ∀ n < 128, (Char.ofNat n).toLower.toNat < 128 ∧
      (Char.ofNat n).toLower.isUpper = false ∧
      ((Char.ofNat n).isUpper = false → (Char.ofNat n).toLower = Char.ofNat n) := by
    decide +kernel
  simpa using hall c.toNat h

end Letters

/-- None of the two exceptions of lowering is an ASCII character. -/
theorem lowerFrom_ascii {cs : List Char} (h : ∀ c ∈ cs, c.toNat < 128) (before : List Char) :
    lowerFrom before cs = cs.map Char.toLower := by
  induction cs generalizing before with
  | nil => rfl
  | cons c cs ih =>
    obtain ⟨hc, hcs⟩ := List.forall_mem_cons.1 h
    have hsigma : c ≠ 'Σ' := by
      rintro rfl
      exact absurd hc (by decide)
    have hdotted : c ≠ 'İ' := by
      rintro rfl
      exact absurd hc (by decide)
    rw [lowerFrom, if_neg hsigma, if_neg hdotted, (letters_ascii hc).2.2, ih hcs]
    rfl

end CitationLocale.Text
