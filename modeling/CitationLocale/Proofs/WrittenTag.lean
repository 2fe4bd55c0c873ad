import Mathlib.Data.List.Nodup
import CitationLocale.Markup.Fragment
import CitationLocale.Markup.Token

/-!
# Reading a written tag

A tag with names that can be read at all (`IsReadable`) is read as it was written
(`stepOpenTag_start`, `stepOpenTag_empty`), whatever characters its attribute values hold: a written
value has no quote and no angle bracket in it. If the names are XML names, the tag is also cut off
the document as one piece (`cut_start`, `cut_empty`, `cut_close`), and only two attributes of one
name make a tag that cannot be read (`exists_fault_stepOpenTag`).
-/

namespace CitationLocale.Markup

open Text

/-! ## Names -/

/-- The characters besides markup space that no XML name holds. -/
def nameBreakers : List Char := ['"', '\'', '<', '>', '/', '=', '!', '?', '&']

/-- An XML name is not empty and has no markup space and none of `"'<>/=!?&` in it. -/
def IsXmlName (s : String) : Prop :=
  s ≠ "" ∧ ∀ c ∈ s.toList, isMarkupSpace c = false ∧ c ∉ nameBreakers

instance (s : String) : Decidable (IsXmlName s) :=
  @instDecidableAnd _ _ _ (List.decidableBAll _ s.toList)

theorem IsXmlName.exists_cons {s : String} (h : IsXmlName s) :
    ∃ c cs, s.toList = c :: cs ∧ isMarkupSpace c = false ∧ c ∉ nameBreakers := by
  obtain ⟨c, cs, hcs⟩ := List.exists_cons_of_ne_nil (mt String.toList_eq_nil_iff.1 h.1)
  exact ⟨c, cs, hcs, h.2 c (by simp [hcs])⟩

theorem IsXmlName.ne {s : String} (h : IsXmlName s) {c d : Char} (hc : c ∈ s.toList)
    (hd : d ∈ nameBreakers) : c ≠ d := by
  rintro rfl
  exact (h.2 c hc).2 hd

/-- Names are made of name characters. -/
theorem IsXmlName.isNameChar {s : String} (h : IsXmlName s) :
    ∀ c ∈ s.toList, isNameChar c = true := by
  intro c hc
  simp [Markup.isNameChar, (h.2 c hc).1]

theorem IsXmlName.isKeyChar {s : String} (h : IsXmlName s) :
    ∀ c ∈ s.toList, isKeyChar c = true := by
  intro c hc
  simp [Markup.isKeyChar, (h.2 c hc).1, h.ne hc (d := '=') (by decide)]

/-- What can be read as the name of an attribute: the first character is any but markup space. -/
def IsKey (s : String) : Prop :=
  ∃ c cs, s.toList = c :: cs ∧ isMarkupSpace c = false ∧ ∀ d ∈ cs, isKeyChar d = true

theorem IsXmlName.isKey {s : String} (h : IsXmlName s) : IsKey s := by
  obtain ⟨c, cs, hcs, hc, -⟩ := h.exists_cons
  exact ⟨c, cs, hcs, hc, fun d hd => h.isKeyChar d (by simp [hcs, hd])⟩

/-! ## Written values -/

/-- No written text holds an angle bracket or a quote. -/
theorem not_mem_escape {d : Char} (hd : d ∈ ['<', '>', '\'', '"']) (cs : List Char) :
    d ∉ escape cs := by
  simp only [escape, List.mem_flatMap, not_exists, not_and]
  intro c _ h
  unfold escapeChar at h
  simp only [List.mem_cons, List.not_mem_nil, or_false] at hd
  split_ifs at h <;> rcases hd with rfl | rfl | rfl | rfl <;> simp_all [eq_comm]

/-! ## The end of a tag -/

/-- Puts characters before the part of a split that comes first. -/
def withBefore (cs : List Char) (split : List Char × List Char) : List Char × List Char :=
  (cs ++ split.1, split.2)

@[simp] theorem withBefore_nil : withBefore [] = id := rfl

/-- Characters that neither end a tag nor leave a quote open. -/
def StaysInTag (cs : List Char) : Prop :=
  ∀ rest, splitTag none (cs ++ rest) = (splitTag none rest).map (withBefore cs)

theorem StaysInTag.append {cs ds : List Char} (hc : StaysInTag cs) (hd : StaysInTag ds) :
    StaysInTag (cs ++ ds) := by
  intro rest
  rw [List.append_assoc, hc, hd, Option.map_map]
  congr 1
  funext split
  simp [withBefore]

theorem StaysInTag.flatMap {α : Type} {f : α → List Char} {xs : List α}
    (h : ∀ x ∈ xs, StaysInTag (f x)) : StaysInTag (xs.flatMap f) := by
  induction xs with
  | nil => intro rest; simp
  | cons x xs ih =>
    rw [List.flatMap_cons]
    exact (h x (by simp)).append (ih fun y hy => h y (List.mem_cons_of_mem x hy))

theorem StaysInTag.splitTag {cs : List Char} (h : StaysInTag cs) (rest : List Char) :
    splitTag none (cs ++ '>' :: rest) = some (cs, rest) := by
  rw [h, Markup.splitTag]
  simp [withBefore]

theorem splitTag_cons_plain {c : Char} (hquote : c ≠ '"' ∧ c ≠ '\'') (hend : c ≠ '>')
    (cs : List Char) : splitTag none (c :: cs) = (splitTag none cs).map (withBefore [c]) := by
  rw [splitTag]
  simp only [Option.isNone_none, Bool.true_and, beq_eq_false_iff_ne.2 hend, Bool.false_eq_true,
    if_false, beq_eq_false_iff_ne.2 hquote.1, beq_eq_false_iff_ne.2 hquote.2, Bool.or_self]
  rfl

theorem staysInTag_of_plain {cs : List Char}
    (h : ∀ c ∈ cs, (c ≠ '"' ∧ c ≠ '\'') ∧ c ≠ '>') : StaysInTag cs := by
  have hflat : StaysInTag (cs.flatMap fun c => [c]) :=
    StaysInTag.flatMap fun c hc rest => splitTag_cons_plain (h c hc).1 (h c hc).2 rest
  simpa using hflat

theorem staysInTag_name {s : String} (h : IsXmlName s) : StaysInTag s.toList :=
  staysInTag_of_plain fun _ hc =>
    ⟨⟨h.ne hc (by decide), h.ne hc (by decide)⟩, h.ne hc (by decide)⟩

/-- Inside quotes everything up to the next quote belongs to the tag. -/
theorem splitTag_quoted {cs : List Char} (h : '"' ∉ cs) (rest : List Char) :
    splitTag (some '"') (cs ++ '"' :: rest) =
      (splitTag none rest).map (withBefore (cs ++ ['"'])) := by
  induction cs with
  | nil => rfl
  | cons c cs ih =>
    obtain ⟨hc, hcs⟩ := not_or.1 (mt List.mem_cons.2 h)
    rw [List.cons_append, splitTag]
    simp only [Option.isNone_some, Bool.false_and, Bool.false_eq_true, if_false,
      beq_eq_false_iff_ne.2 (Ne.symm hc), ih hcs, Option.map_map]
    rfl

theorem staysInTag_attribute {a : String × String} (h : StaysInTag a.1.toList) :
    StaysInTag (attributeChars a) := by
  have hkey : StaysInTag (' ' :: a.1.toList ++ ['=']) := by
    have hspace : StaysInTag [' '] := staysInTag_of_plain (by simp)
    have hequal : StaysInTag ['='] := staysInTag_of_plain (by simp)
    exact (hspace.append h).append hequal
  have hvalue : StaysInTag ('"' :: escape a.2.toList ++ ['"']) := by
    intro rest
    have hquoted := splitTag_quoted (not_mem_escape (d := '"') (by decide) a.2.toList) rest
    have hopen (cs : List Char) :
        splitTag none ('"' :: cs) = (splitTag (some '"') cs).map (withBefore ['"']) := rfl
    rw [List.cons_append, List.cons_append, List.append_assoc, List.singleton_append, hopen,
      hquoted, Option.map_map]
    rfl
  have hsplit : attributeChars a =
      (' ' :: a.1.toList ++ ['=']) ++ ('"' :: escape a.2.toList ++ ['"']) := by
    simp [attributeChars]
  rw [hsplit]
  exact hkey.append hvalue

/-! ## The attributes of a tag -/

section Attributes

variable {k : String} (v : String) (total : Nat) (seen : List (List Char × Nat)) (rest : List Char)

/-- A written attribute is the next one that is read, unless its name was read before. -/
theorem nextAttribute?_written (hk : IsKey k) :
    ∃ offset, nextAttribute? total seen (attributeChars (k, v) ++ rest) =
      match seen.lookup k.toList with
      | some earlier => .error (.duplicated offset earlier)
      | none => .ok (some ⟨k.toList, offset, escape v.toList, rest⟩) := by
  obtain ⟨c, cs, hcs, hc, hkey⟩ := hk
  have hchars : attributeChars (k, v) ++ rest =
      ' ' :: c :: (cs ++ '=' :: '"' :: (escape v.toList ++ '"' :: rest)) := by
    simp [attributeChars, hcs]
  have hvalue : ∀ d ∈ escape v.toList, (d != '"') = true := by
    intro d hd
    rw [bne_iff_ne]
    rintro rfl
    exact not_mem_escape (by decide) _ hd
  have hspace : (' ' :: c :: (cs ++ '=' :: '"' :: (escape v.toList ++ '"' :: rest))).dropWhile
      isMarkupSpace = c :: (cs ++ '=' :: '"' :: (escape v.toList ++ '"' :: rest)) := by
    rw [List.dropWhile_cons_of_pos (by decide), List.dropWhile_cons_of_neg (by simp [hc])]
  have hafter : ((cs ++ '=' :: '"' :: (escape v.toList ++ '"' :: rest)).dropWhile
      isKeyChar).dropWhile isMarkupSpace = '=' :: '"' :: (escape v.toList ++ '"' :: rest) := by
    rw [List.dropWhile_append_of_pos hkey, List.dropWhile_cons_of_neg (by decide),
      List.dropWhile_cons_of_neg (by decide)]
  have htake : (cs ++ '=' :: '"' :: (escape v.toList ++ '"' :: rest)).takeWhile isKeyChar = cs := by
    rw [List.takeWhile_append_of_pos hkey, List.takeWhile_cons_of_neg (by decide),
      List.append_nil]
  have hquote : ('"' :: (escape v.toList ++ '"' :: rest)).dropWhile isMarkupSpace =
      '"' :: (escape v.toList ++ '"' :: rest) := by
    rw [List.dropWhile_cons_of_neg (by decide)]
  have hend : (escape v.toList ++ '"' :: rest).dropWhile (· != '"') = '"' :: rest := by
    rw [List.dropWhile_append_of_pos hvalue, List.dropWhile_cons_of_neg (by decide)]
  have hinside : (escape v.toList ++ '"' :: rest).takeWhile (· != '"') = escape v.toList := by
    rw [List.takeWhile_append_of_pos hvalue, List.takeWhile_cons_of_neg (by decide),
      List.append_nil]
  refine ⟨total - byteLength (c :: (cs ++ '=' :: '"' :: (escape v.toList ++ '"' :: rest))), ?_⟩
  rw [hchars, nextAttribute?, hspace]
  simp only [hafter, htake, hquote, hend, hinside, hcs]
  cases seen.lookup (c :: cs) <;> simp

/-- Reading goes on behind a written attribute, unless its name was read before. -/
theorem readAttributes_written (hk : IsKey k) :
    ∃ offset, readAttributes total seen (attributeChars (k, v) ++ rest) =
      match seen.lookup k.toList with
      | some earlier => .error (.form (.duplicated offset earlier))
      | none => (readAttributes total ((k.toList, offset) :: seen) rest).map ((k, v) :: ·) := by
  obtain ⟨offset, hnext⟩ := nextAttribute?_written v total seen rest hk
  refine ⟨offset, ?_⟩
  rw [readAttributes]
  cases hseen : seen.lookup k.toList with
  | some earlier =>
    rw [hseen] at hnext
    split
    · next fault h =>
      obtain rfl : .duplicated offset earlier = fault := by simpa [hnext] using h
      rfl
    · next h => simp [hnext] at h
    · next h => simp [hnext] at h
  | none =>
    rw [hseen] at hnext
    split
    · next h => simp [hnext] at h
    · next h => simp [hnext] at h
    · next a h =>
      obtain rfl : ⟨k.toList, offset, escape v.toList, rest⟩ = a := by simpa [hnext] using h
      simp only [unescape_escape, String.ofList_toList]

end Attributes

/-- Written attributes with distinct names are read as they were written. -/
theorem readAttributes_of_nodup {attributes : List (String × String)} (total : Nat)
    {seen : List (List Char × Nat)} (hnames : ∀ a ∈ attributes, IsKey a.1)
    (hnodup : (attributes.map Prod.fst).Nodup)
    (hseen : ∀ a ∈ attributes, seen.lookup a.1.toList = none) :
    readAttributes total seen (attributes.flatMap attributeChars) = .ok attributes := by
  induction attributes generalizing seen with
  | nil =>
    rw [List.flatMap_nil, readAttributes]
    rfl
  | cons a attributes ih =>
    obtain ⟨k, v⟩ := a
    rw [List.map_cons, List.nodup_cons] at hnodup
    rw [List.forall_mem_cons] at hnames hseen
    obtain ⟨offset, hread⟩ := readAttributes_written v total seen
      (attributes.flatMap attributeChars) hnames.1
    have htail : readAttributes total ((k.toList, offset) :: seen)
        (attributes.flatMap attributeChars) = .ok attributes := by
      apply ih hnames.2 hnodup.2
      intro a ha
      have hmem : a.1 ∈ attributes.map Prod.fst := List.mem_map_of_mem ha
      have hne : a.1.toList ≠ k.toList := by
        intro h
        exact hnodup.1 (String.toList_inj.1 h ▸ hmem)
      rw [List.lookup_cons, beq_false_of_ne hne]
      exact hseen.2 a ha
    rw [List.flatMap_cons, hread, hseen.1]
    simp only [htail]
    rfl

/-- Written attributes of which two have one name, or one has a name that was read before, cannot be
read. -/
theorem exists_fault_of_repeated {attributes : List (String × String)} (total : Nat)
    (seen : List (List Char × Nat)) (hnames : ∀ a ∈ attributes, IsKey a.1)
    (hrepeated : ¬ ((attributes.map Prod.fst).Nodup ∧
      ∀ a ∈ attributes, seen.lookup a.1.toList = none)) :
    ∃ fault, readAttributes total seen (attributes.flatMap attributeChars) = .error fault := by
  induction attributes generalizing seen with
  | nil => exact absurd ⟨List.nodup_nil, fun a ha => absurd ha List.not_mem_nil⟩ hrepeated
  | cons a attributes ih =>
    obtain ⟨k, v⟩ := a
    rw [List.forall_mem_cons] at hnames
    obtain ⟨offset, hread⟩ := readAttributes_written v total seen
      (attributes.flatMap attributeChars) hnames.1
    rw [List.flatMap_cons, hread]
    cases hseen : seen.lookup k.toList with
    | some earlier => exact ⟨_, rfl⟩
    | none =>
      have htail : ¬ ((attributes.map Prod.fst).Nodup ∧
          ∀ a ∈ attributes, ((k.toList, offset) :: seen).lookup a.1.toList = none) := by
        rintro ⟨hnodup, hnew⟩
        refine hrepeated ⟨List.nodup_cons.2 ⟨fun hk => ?_, hnodup⟩,
          List.forall_mem_cons.2 ⟨hseen, fun a ha => ?_⟩⟩
        · obtain ⟨a, ha, hak⟩ := List.mem_map.1 hk
          obtain rfl : a.1 = k := hak
          simpa using hnew a ha
        · have := hnew a ha
          rw [List.lookup_cons] at this
          split at this
          · simp at this
          · exact this
      obtain ⟨fault, hfault⟩ := ih _ hnames.2 htail
      simp only [hfault]
      exact ⟨fault, rfl⟩

/-! ## Whole tags -/

/-- A tag whose names are XML names and whose attributes have distinct names. -/
structure IsTag (name : String) (attributes : List (String × String)) : Prop where
  name : IsXmlName name
  keys : ∀ a ∈ attributes, IsXmlName a.1
  nodup : (attributes.map Prod.fst).Nodup

/-- A tag whose inside is read as its name and its attributes. -/
structure IsReadable (name : String) (attributes : List (String × String)) : Prop where
  name : ∀ c ∈ name.toList, isNameChar c = true
  keys : ∀ a ∈ attributes, IsKey a.1
  nodup : (attributes.map Prod.fst).Nodup

theorem IsTag.isReadable {name : String} {attributes : List (String × String)}
    (h : IsTag name attributes) : IsReadable name attributes :=
  ⟨h.name.isNameChar, fun a ha => (h.keys a ha).isKey, h.nodup⟩

section Tag

variable {name : String} {attributes : List (String × String)}

/-- What stands between the angle brackets of a start tag. -/
def tagBody (name : String) (attributes : List (String × String)) : List Char :=
  name.toList ++ attributes.flatMap attributeChars

theorem head_attributes (attributes : List (String × String)) :
    ∀ c ∈ (attributes.flatMap attributeChars).head?, isNameChar c = false := by
  cases attributes with
  | nil => simp
  | cons a attributes =>
    intro c hc
    obtain rfl : ' ' = c := by simpa [attributeChars] using hc
    decide

theorem takeWhile_tagBody (h : ∀ c ∈ name.toList, isNameChar c = true) :
    (tagBody name attributes).takeWhile isNameChar = name.toList := by
  rw [tagBody, List.takeWhile_append_of_pos h]
  cases hrest : attributes.flatMap attributeChars with
  | nil => simp
  | cons c cs =>
    have hc := head_attributes attributes c (by simp [hrest])
    rw [List.takeWhile_cons_of_neg (by simp [hc]), List.append_nil]

theorem dropWhile_tagBody (h : ∀ c ∈ name.toList, isNameChar c = true) :
    (tagBody name attributes).dropWhile isNameChar = attributes.flatMap attributeChars := by
  rw [tagBody, List.dropWhile_append_of_pos h]
  cases hrest : attributes.flatMap attributeChars with
  | nil => rfl
  | cons c cs =>
    have hc := head_attributes attributes c (by simp [hrest])
    rw [List.dropWhile_cons_of_neg (by simp [hc])]

theorem readTag_tagBody (h : IsReadable name attributes) :
    readTag (tagBody name attributes) = .ok (name, attributes) := by
  have hread := readAttributes_of_nodup (byteLength (tagBody name attributes)) h.keys h.nodup
    fun _ _ => (rfl : ([] : List (List Char × Nat)).lookup _ = none)
  rw [readTag, dropWhile_tagBody h.name, takeWhile_tagBody h.name, hread]
  simp [Except.map]

/-- Quotes that are open inside a tag are open in its name or in the name of an attribute. -/
theorem staysInTag_tagBody (hname : StaysInTag name.toList)
    (hkeys : ∀ a ∈ attributes, StaysInTag a.1.toList) : StaysInTag (tagBody name attributes) :=
  hname.append (StaysInTag.flatMap fun a ha => staysInTag_attribute (hkeys a ha))

theorem staysInTag_tagBody_of_names (hname : IsXmlName name)
    (hkeys : ∀ a ∈ attributes, IsXmlName a.1) : StaysInTag (tagBody name attributes) :=
  staysInTag_tagBody (staysInTag_name hname) fun a ha => staysInTag_name (hkeys a ha)

/-- A start tag ends like an empty one only if it has no attributes and its name ends so. -/
theorem getLast?_tagBody (h : attributes = [] → name.toList.getLast? ≠ some '/') :
    (tagBody name attributes).getLast? ≠ some '/' := by
  rcases List.eq_nil_or_concat attributes with rfl | ⟨as, a, rfl⟩
  · simpa [tagBody] using h rfl
  · have hquote : attributeChars a =
        (' ' :: a.1.toList ++ '=' :: '"' :: escape a.2.toList) ++ ['"'] := by
      simp [attributeChars]
    rw [tagBody, List.concat_eq_append, List.flatMap_append, List.flatMap_singleton, hquote,
      ← List.append_assoc, ← List.append_assoc, List.getLast?_concat]
    decide

theorem IsXmlName.getLast?_ne (h : IsXmlName name) : name.toList.getLast? ≠ some '/' :=
  fun hlast => h.ne (List.mem_of_getLast? hlast) (by decide) rfl

theorem stepOpenTag_start (h : IsReadable name attributes)
    (hend : attributes = [] → name.toList.getLast? ≠ some '/') (opened : List (List Char))
    (stop : Nat) : stepOpenTag opened stop (tagBody name attributes) =
      .ok ⟨.start name attributes, name.toList :: opened⟩ := by
  have hlast : ((tagBody name attributes).getLast? == some '/') = false :=
    beq_false_of_ne (getLast?_tagBody hend)
  simp only [stepOpenTag, hlast, Bool.false_eq_true, if_false, readTag_tagBody h,
    takeWhile_tagBody h.name]

theorem stepOpenTag_empty (h : IsReadable name attributes) (opened : List (List Char))
    (stop : Nat) : stepOpenTag opened stop (tagBody name attributes ++ ['/']) =
      .ok ⟨.empty name attributes, opened⟩ := by
  have hlast : ((tagBody name attributes ++ ['/']).getLast? == some '/') = true := by
    simp
  simp only [stepOpenTag, hlast, if_true, List.dropLast_concat, readTag_tagBody h]

/-- A tag with two attributes of one name cannot be read, neither as a start tag nor as an empty
one. -/
theorem exists_fault_stepOpenTag (hname : IsXmlName name) (hkeys : ∀ a ∈ attributes, IsXmlName a.1)
    (hrepeated : ¬ (attributes.map Prod.fst).Nodup) (opened : List (List Char)) (stop : Nat) :
    (∃ fault, stepOpenTag opened stop (tagBody name attributes) = .error fault) ∧
      ∃ fault, stepOpenTag opened stop (tagBody name attributes ++ ['/']) = .error fault := by
  have hlast : ((tagBody name attributes).getLast? == some '/') = false :=
    beq_false_of_ne (getLast?_tagBody fun _ => hname.getLast?_ne)
  have hlast' : ((tagBody name attributes ++ ['/']).getLast? == some '/') = true := by
    simp
  obtain ⟨fault, hfault⟩ := exists_fault_of_repeated (byteLength (tagBody name attributes)) []
    (fun a ha => (hkeys a ha).isKey) fun h => hrepeated h.1
  have hread : readTag (tagBody name attributes) = .error fault := by
    rw [readTag, dropWhile_tagBody hname.isNameChar, hfault]
    rfl
  simp only [stepOpenTag, hlast, hlast', Bool.false_eq_true, if_false, if_true,
    List.dropLast_concat, hread]
  cases fault <;> exact ⟨⟨_, rfl⟩, _, rfl⟩

/-- Nothing is trimmed off a name in a close tag, not even off an empty one. -/
theorem closingName_name (h : ∀ c ∈ name.toList, isNameChar c = true) :
    closingName name.toList = name.toList := by
  have hdrop : name.toList.reverse.dropWhile isMarkupSpace = name.toList.reverse := by
    cases hreverse : name.toList.reverse with
    | nil => rfl
    | cons d ds =>
      have hd := h d (List.mem_reverse.1 (by simp [hreverse]))
      rw [List.dropWhile_cons_of_neg (by simpa [isNameChar] using hd)]
  rw [closingName, hdrop, List.reverse_reverse, ite_self]

/-! ## Cutting tags off the document -/

/-- What starts like no other construct is an open tag. -/
theorem cut_openTag {body : List Char} (hhead : ∀ c ∈ body.head?, c ∉ ['!', '?', '/'])
    (hstays : StaysInTag body) (rest : List Char) :
    Piece.cut ('<' :: (body ++ '>' :: rest)) = .ok (.openTag body, rest) := by
  have hmark : ∀ c ∈ (body ++ '>' :: rest).head?, c ∉ ['!', '?', '/'] := by
    cases body with
    | nil => simp
    | cons c body => exact hhead
  have hsplit := hstays.splitTag rest
  rw [Piece.cut, cutMarkup]
  · simp only [hsplit]
  all_goals
    rintro ds h
    rw [h] at hmark
    exact hmark _ rfl (by decide)

theorem cut_closeTag {body : List Char} (hstays : StaysInTag body) (rest : List Char) :
    Piece.cut ('<' :: '/' :: (body ++ '>' :: rest)) = .ok (.closeTag body, rest) := by
  rw [Piece.cut, cutMarkup]
  simp only [hstays.splitTag rest]

/-- A tag starts with its name, or with space if it has no name. -/
theorem head_tagBody (attributes : List (String × String))
    (hname : ∀ c ∈ name.toList.head?, c ∉ ['!', '?', '/']) :
    ∀ c ∈ (tagBody name attributes).head?, c ∉ ['!', '?', '/'] := by
  intro c hc
  rw [tagBody, List.head?_append] at hc
  cases hhead : name.toList.head? with
  | some d =>
    rw [hhead] at hc hname
    exact hname c hc
  | none =>
    rw [hhead, Option.none_or] at hc
    have hspace := head_attributes attributes c hc
    rintro hmark
    simp only [List.mem_cons, List.not_mem_nil, or_false] at hmark
    rcases hmark with rfl | rfl | rfl <;> exact absurd hspace (by decide)

theorem IsXmlName.head (h : IsXmlName name) : ∀ c ∈ name.toList.head?, c ∉ ['!', '?', '/'] := by
  intro c hc hmark
  have hbreaker : c ∉ nameBreakers := (h.2 c (List.mem_of_head? hc)).2
  simp only [List.mem_cons, List.not_mem_nil, or_false] at hmark
  rcases hmark with rfl | rfl | rfl <;> exact hbreaker (by decide)

theorem tagBody_ne_nil (h : name ≠ "" ∨ attributes ≠ []) : tagBody name attributes ≠ [] := by
  rw [tagBody]
  rcases h with h | h
  · exact List.append_ne_nil_of_left_ne_nil (mt String.toList_eq_nil_iff.1 h) _
  · obtain ⟨a, as, rfl⟩ := List.exists_cons_of_ne_nil h
    simp [attributeChars]

theorem cut_start (hname : IsXmlName name) (hkeys : ∀ a ∈ attributes, IsXmlName a.1)
    (rest : List Char) :
    Piece.cut ((Fragment.start name attributes).chars ++ rest) =
      .ok (.openTag (tagBody name attributes), rest) := by
  simpa [Fragment.chars, tagBody] using
    cut_openTag (head_tagBody attributes hname.head) (staysInTag_tagBody_of_names hname hkeys) rest

theorem cut_empty (hname : IsXmlName name) (hkeys : ∀ a ∈ attributes, IsXmlName a.1)
    (rest : List Char) :
    Piece.cut ((Fragment.empty name attributes).chars ++ rest) =
      .ok (.openTag (tagBody name attributes ++ ['/']), rest) := by
  have hslash : StaysInTag ['/'] := staysInTag_of_plain (by simp)
  have hhead := head_tagBody attributes hname.head
  rw [← List.head?_append_of_ne_nil _ (tagBody_ne_nil (.inl hname.1))] at hhead
  have hcut := cut_openTag hhead ((staysInTag_tagBody_of_names hname hkeys).append hslash) rest
  simpa [Fragment.chars, tagBody] using hcut

theorem cut_close (h : IsXmlName name) (rest : List Char) :
    Piece.cut ((Fragment.close name).chars ++ rest) = .ok (.closeTag name.toList, rest) := by
  simpa [Fragment.chars] using cut_closeTag (staysInTag_name h) rest

end Tag

end CitationLocale.Markup
