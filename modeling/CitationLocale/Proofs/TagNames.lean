import CitationLocale.Proofs.Letters
import CitationLocale.Proofs.Registration

/-!
# Derived tag names

A tag name is derived by replacing every match of a small letter and a capital letter by the two
with a hyphen between them, and by lowering the outcome. A match consumes its capital letter, so
the scan goes on behind it; no boundary is lost by that, because a capital letter is not a small one
(`isSmallLetter_of_isCapitalLetter`). So for every identifier the name is that of a scan that looks
at each pair of neighbours (`canonicalName_eq_replaceBoundaries`).

For identifiers of ASCII characters the name is described position by position
(`canonicalName_marks_words`): every character is lowered, and it is followed by one hyphen exactly
where a word ends. Lowering leaves no capital letter, and so no boundary for a second pass.
-/

namespace CitationLocale

open Text

/-! ## Boundaries of words -/

/-- Replaces from left to right every small letter with a capital letter behind it by the two with a
hyphen between them. -/
def replaceBoundaries : List Char → List Char
  | c :: d :: cs =>
    if isSmallLetter c && isCapitalLetter d then
      c :: '-' :: d :: replaceBoundaries cs
    else
      c :: replaceBoundaries (d :: cs)
  | cs => cs

/-- What is set behind a character, given the rest of its text. -/
def boundary (c : Char) (cs : List Char) : List Char :=
  if isSmallLetter c && cs.head?.any isCapitalLetter then ['-'] else []

theorem hyphenate_cons (c : Char) (cs : List Char) :
    hyphenate (c :: cs) = c :: (boundary c cs ++ hyphenate cs) := by
  cases cs with
  | nil => simp [hyphenate, boundary]
  | cons d cs =>
    rw [hyphenate, boundary, List.head?_cons, Option.any_some]
    split <;> rfl

/-- No boundary lies between a capital letter and what follows it, so a scan may go on behind the
capital letter of a match. -/
theorem replaceBoundaries_eq_hyphenate (cs : List Char) : replaceBoundaries cs = hyphenate cs := by
  induction cs using replaceBoundaries.induct with
  | case1 c d cs hboundary ih =>
    obtain ⟨-, hcapital⟩ := Bool.and_eq_true_iff.1 hboundary
    have hd : boundary d cs = [] := by
      rw [boundary, isSmallLetter_of_isCapitalLetter hcapital, Bool.false_and,
        if_neg Bool.false_ne_true]
    rw [replaceBoundaries, if_pos hboundary, ih, hyphenate, if_pos hboundary, hyphenate_cons, hd,
      List.nil_append]
  | case2 c d cs hboundary ih =>
    rw [replaceBoundaries, if_neg hboundary, ih, hyphenate, if_neg hboundary]
  | case3 cs hshort =>
    rw [replaceBoundaries.eq_2 cs hshort, hyphenate.eq_2 cs hshort]

/-- Every identifier's name, of whatever letters, is derived by the scan that goes on behind each
match. -/
theorem canonicalName_eq_replaceBoundaries (ident : String) :
    canonicalName ident = lower (String.ofList (replaceBoundaries ident.toList)) := by
  rw [canonicalName, replaceBoundaries_eq_hyphenate]

/-- Whether a word of a text ends at a position: an ASCII small letter stands there, and an ASCII
capital letter directly behind it. -/
def endsWord (cs : List Char) (i : Nat) : Bool :=
  cs[i]?.any Char.isLower && cs[i + 1]?.any Char.isUpper

theorem endsWord_cons_zero (c : Char) (cs : List Char) :
    endsWord (c :: cs) 0 = (c.isLower && cs.head?.any Char.isUpper) := by
  simp [endsWord, List.head?_eq_getElem?]

theorem endsWord_cons_succ (c : Char) (cs : List Char) (i : Nat) :
    endsWord (c :: cs) (i + 1) = endsWord cs i := rfl

/-- A text in which every character has been changed, and every word is followed by a hyphen. -/
def markWords (f : Char → Char) (cs : List Char) : List Char :=
  cs.zipIdx.flatMap fun (c, i) => f c :: if endsWord cs i then ['-'] else []

theorem markWords_cons (f : Char → Char) (c : Char) (cs : List Char) :
    markWords f (c :: cs) =
      f c :: ((if c.isLower && cs.head?.any Char.isUpper then ['-'] else []) ++
        markWords f cs) := by
  rw [markWords, List.zipIdx_cons', List.flatMap_cons, List.flatMap_map]
  simp only [Prod.map, id, endsWord_cons_zero, endsWord_cons_succ, List.cons_append, markWords]
  rfl

theorem mem_markWords {f : Char → Char} {cs : List Char} {d : Char} (h : d ∈ markWords f cs) :
    d = '-' ∨ ∃ c ∈ cs, d = f c := by
  obtain ⟨⟨c, i⟩, hmem, hd⟩ := List.mem_flatMap.1 h
  rcases List.mem_cons.1 hd with rfl | hd
  · exact .inr ⟨c, List.fst_mem_of_mem_zipIdx hmem, rfl⟩
  · refine .inl ?_
    split at hd
    · exact List.mem_singleton.1 hd
    · exact absurd hd List.not_mem_nil

theorem map_toLower_markWords (cs : List Char) :
    (markWords id cs).map Char.toLower = markWords Char.toLower cs := by
  rw [markWords, List.map_flatMap, markWords]
  congr 1
  funext ⟨c, i⟩
  dsimp only
  split <;> rfl

/-- Without capital letters no word ends inside a text, and nothing is lowered. -/
theorem markWords_of_no_capital {cs : List Char}
    (h : ∀ c ∈ cs, c.toNat < 128 ∧ c.isUpper = false) : markWords Char.toLower cs = cs := by
  induction cs with
  | nil => rfl
  | cons c cs ih =>
    obtain ⟨⟨hascii, hc⟩, hcs⟩ := List.forall_mem_cons.1 h
    have hnext : cs.head?.any Char.isUpper = false := by
      cases cs with
      | nil => rfl
      | cons d cs => exact (hcs d List.mem_cons_self).2
    rw [markWords_cons, hnext, Bool.and_false, if_neg Bool.false_ne_true, List.nil_append, ih hcs,
      (toLower_ascii hascii).2.2 hc]

theorem hyphenate_ascii {cs : List Char} (h : ∀ c ∈ cs, c.toNat < 128) :
    hyphenate cs = markWords id cs := by
  induction cs with
  | nil => rfl
  | cons c cs ih =>
    obtain ⟨hc, hcs⟩ := List.forall_mem_cons.1 h
    have hnext : cs.head?.any isCapitalLetter = cs.head?.any Char.isUpper := by
      cases cs with
      | nil => rfl
      | cons d cs => exact (letters_ascii (hcs d List.mem_cons_self)).2.1
    rw [hyphenate_cons, boundary, (letters_ascii hc).1, hnext, ih hcs, markWords_cons, id]

/-! ## The derived name -/

theorem toList_canonicalName {ident : String} (h : ∀ c ∈ ident.toList, c.toNat < 128) :
    (canonicalName ident).toList = markWords Char.toLower ident.toList := by
  have hmarked : ∀ c ∈ markWords id ident.toList, c.toNat < 128 := by
    intro c hc
    rcases mem_markWords hc with rfl | ⟨d, hd, hsame⟩
    · decide
    · exact hsame ▸ h d hd
  rw [canonicalName, lower, String.toList_ofList, String.toList_ofList, hyphenate_ascii h,
    lowerFrom_ascii hmarked, map_toLower_markWords]

/-- Lowering takes the capital letters away, and no other character brings one in. -/
theorem canonicalName_chars {ident : String} (h : ∀ c ∈ ident.toList, c.toNat < 128) :
    ∀ c ∈ (canonicalName ident).toList, c.toNat < 128 ∧ c.isUpper = false := by
  intro c hc
  rw [toList_canonicalName h] at hc
  rcases mem_markWords hc with rfl | ⟨d, hd, rfl⟩
  · decide
  · obtain ⟨hascii, hupper, -⟩ := toLower_ascii (h d hd)
    exact ⟨hascii, hupper⟩

theorem canonicalName_of_no_capital {s : String}
    (h : ∀ c ∈ s.toList, c.toNat < 128 ∧ c.isUpper = false) : canonicalName s = s := by
  rw [← String.toList_inj, toList_canonicalName fun c hc => (h c hc).1,
    markWords_of_no_capital h]

/-! ## Lookup under the derived name -/

/-- A type whose name is free is bound to it, whatever is registered later. -/
theorem Registry.lookup?_of_first {r : Registry} {t : NodeType} (h : r.lookup? t.name = none)
    (more : List NodeType) : (more.foldl register (r.register t)).lookup? t.name = some t := by
  rw [lookup?] at h
  rw [lookup?, find?_types_foldl_register, find?_types_register, h, List.find?_singleton]
  simp

/-- The name derived from an ASCII identifier consists of the identifier's characters, lowered, and
of one hyphen directly behind every small letter that a capital letter follows. The scan that goes
on behind each match gives the same name. The name has no capital letter and is its own derived
name. A type without a tag of its own that is registered while the name is free is found under it
from then on, in the registry as in the tables. -/
theorem canonicalName_marks_words (ident : String) (h : ∀ c ∈ ident.toList, c.toNat < 128) :
    (canonicalName ident).toList = ident.toList.zipIdx.flatMap (fun (c, i) =>
        c.toLower :: if endsWord ident.toList i then ['-'] else []) ∧
      canonicalName ident = lower (String.ofList (replaceBoundaries ident.toList)) ∧
      (∀ c ∈ (canonicalName ident).toList,
        c.toNat < 128 ∧ c.isUpper = false ∧ isCapitalLetter c = false) ∧
      canonicalName (canonicalName ident) = canonicalName ident ∧
      ∀ t : NodeType, t.declaration.ident = ident → t.declaration.tag? = none →
        (∀ (r : Registry) (more : List NodeType), r.lookup? (canonicalName ident) = none →
          (more.foldl Registry.register (r.register t)).lookup? (canonicalName ident) = some t) ∧
        ∀ before more : List NodeType, (∀ u ∈ before, u.name ≠ canonicalName ident) →
          (Registry.Tables.ofTypes (before ++ t :: more)).lookup? (canonicalName ident) =
            some t := by
  have hchars := canonicalName_chars h
  refine ⟨toList_canonicalName h, canonicalName_eq_replaceBoundaries ident, fun c hc => ?_,
    canonicalName_of_no_capital hchars, fun t hident htag => ?_⟩
  · obtain ⟨hascii, hupper⟩ := hchars c hc
    exact ⟨hascii, hupper, (letters_ascii hascii).2.1.trans hupper⟩
  · have hname : t.name = canonicalName ident := by
      rw [NodeType.name, htag, hident, Option.getD_none]
    rw [← hname]
    refine ⟨fun r more hfree => Registry.lookup?_of_first hfree more, fun before more hbefore => ?_⟩
    rw [(Registry.Tables.mirrors_ofTypes _).lookup?_eq, Registry.ofTypes, List.foldl_append,
      List.foldl_cons]
    refine Registry.lookup?_of_first ?_ more
    rw [Registry.lookup?, Registry.find?_types_foldl_register]
    simpa [Registry.empty] using hbefore

/-- Words of one letter, a run of capital letters and a hyphen of the identifier's own; the type is
registered behind the built-in types and before another type of the same identifier. -/
theorem canonicalName_marks_words_of_short_words :
    let t : NodeType := .declared 0 ⟨"aBcDEf-G", none, [], .leaf, []⟩
    let rival : NodeType := .declared 1 ⟨"aBcDEf-G", none, [], .branch, []⟩
    canonicalName "aBcDEf-G" = "a-bc-def-g" ∧ canonicalName "a-bc-def-g" = "a-bc-def-g" ∧
      ((Registry.builtins.register t).register rival).lookup? "a-bc-def-g" = some t := by
  intro t rival
  obtain ⟨hname, -, -, hagain, hlookup⟩ := canonicalName_marks_words "aBcDEf-G" (by simp)
  have hname : canonicalName "aBcDEf-G" = "a-bc-def-g" := by
    rw [← String.toList_inj, hname]
    decide
  rw [hname] at hagain hlookup
  refine ⟨hname, hagain, (hlookup t rfl rfl).1 Registry.builtins [rival] ?_⟩
  decide +kernel

end CitationLocale
