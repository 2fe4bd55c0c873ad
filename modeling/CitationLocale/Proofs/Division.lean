import CitationLocale.Proofs.Building
import CitationLocale.Proofs.Decoding
import CitationLocale.Proofs.WrittenTokens

/-!
# Documents divided into pieces

A document may be divided anywhere between two tokens and, inside text, anywhere outside references;
the parts are whole pieces (`Markup.Piece.IsWhole`), and every document without fault has such a
division (`Markup.exists_division`). Reading a divided document is reading its pieces one after the
other (`Node.parseWith_write`), so that what a document is read as can be told from any division.
-/

namespace CitationLocale

namespace Markup

/-! ## The ends of pieces -/

/-- Whether a mark behind some content is the first one, also across the end of the content. -/
def EndsAt (mark content : List Char) : Prop :=
  ¬ mark <:+: content ++ mark.dropLast

theorem splitAround_of_endsAt {mark content : List Char} (hmark : mark ≠ [])
    (h : EndsAt mark content) (rest : List Char) :
    splitAround mark (content ++ mark ++ rest) = some (content, rest) := by
  induction content with
  | nil =>
    obtain ⟨m, ms, rfl⟩ := List.exists_cons_of_ne_nil hmark
    have hprefix : (m :: ms).isPrefixOf (m :: (ms ++ rest)) = true :=
      List.isPrefixOf_iff_prefix.2 (List.prefix_append (m :: ms) rest)
    rw [List.nil_append, List.cons_append, splitAround, if_pos hprefix, ← List.cons_append,
      List.drop_left]
  | cons c content ih =>
    have hcontent : EndsAt mark content := fun hin => h (hin.trans (List.suffix_cons _ _).isInfix)
    have hprefix : ¬ mark.isPrefixOf (c :: (content ++ mark ++ rest)) = true := by
      intro hpre
      refine h (List.IsPrefix.isInfix (List.prefix_of_prefix_length_le
        (List.isPrefixOf_iff_prefix.1 hpre) ?_ ?_))
      · have hlast : mark.dropLast <+: mark ++ rest :=
          (List.dropLast_prefix mark).trans (List.prefix_append mark rest)
        rw [List.append_assoc]
        exact (List.prefix_append_right_inj (c :: content)).2 hlast
      · simp only [List.length_append, List.length_cons, List.length_dropLast]
        omega
    rw [List.cons_append, List.cons_append, splitAround, if_neg hprefix, ih hcontent]
    rfl

theorem endsAt_of_splitAround {mark cs content rest : List Char} (hmark : mark ≠ [])
    (h : splitAround mark cs = some (content, rest)) : EndsAt mark content := by
  induction cs generalizing content with
  | nil => simp [splitAround] at h
  | cons c cs ih =>
    have hwhole := append_of_splitAround h
    rw [splitAround] at h
    split_ifs at h with hprefix
    · obtain ⟨rfl, -⟩ := Prod.mk.inj (Option.some.inj h)
      intro hin
      have hlength := hin.length_le
      have hpos := List.length_pos_iff.2 hmark
      simp only [List.nil_append, List.length_dropLast] at hlength
      omega
    · obtain ⟨⟨before, after⟩, hsplit, heq⟩ := Option.map_eq_some_iff.1 h
      obtain ⟨rfl, rfl⟩ := Prod.mk.inj heq
      intro hin
      rcases List.infix_cons_iff.1 hin with hpre | hin
      · have hlast : c :: before ++ mark.dropLast <+: c :: before ++ (mark ++ after) :=
          (List.prefix_append_right_inj (c :: before)).2
            ((List.dropLast_prefix mark).trans (List.prefix_append mark after))
        rw [← List.append_assoc, hwhole] at hlast
        exact hprefix (List.isPrefixOf_iff_prefix.2 (hpre.trans hlast))
      · exact ih hsplit hin

/-- The quote that is open in a tag after one more character. -/
def nextQuote (quote? : Option Char) (c : Char) : Option Char :=
  match quote? with
  | none => if c == '"' || c == '\'' then some c else none
  | some q => if c == q then none else some q

theorem splitTag_cons (quote? : Option Char) (c : Char) (cs : List Char) :
    splitTag quote? (c :: cs) = if quote?.isNone && c == '>' then some ([], cs)
      else (splitTag (nextQuote quote? c) cs).map (withBefore [c]) := by
  cases quote? <;> rfl

/-- What is cut off as the inside of a tag stays in a tag. -/
theorem staysInTag_of_splitTag {cs body rest : List Char}
    (h : splitTag none cs = some (body, rest)) : StaysInTag body := by
  suffices hquote : ∀ quote? : Option Char, splitTag quote? cs = some (body, rest) →
      ∀ later, splitTag quote? (body ++ later) = (splitTag none later).map (withBefore body) from
    hquote none h
  clear h
  induction cs generalizing body with
  | nil => simp [splitTag]
  | cons c cs ih =>
    intro quote? h later
    rw [splitTag_cons] at h
    by_cases hend : (quote?.isNone && c == '>') = true
    · rw [if_pos hend] at h
      obtain ⟨rfl, -⟩ := Prod.mk.inj (Option.some.inj h)
      rw [Bool.and_eq_true, Option.isNone_iff_eq_none] at hend
      simp [hend.1]
    · rw [if_neg hend] at h
      obtain ⟨⟨before, after⟩, hsplit, heq⟩ := Option.map_eq_some_iff.1 h
      obtain ⟨rfl, rfl⟩ : c :: before = body ∧ after = rest := Prod.mk.inj heq
      rw [List.cons_append, splitTag_cons, if_neg hend, ih _ hsplit, Option.map_map]
      rfl

/-- The end of a declaration does not depend on what follows. -/
theorem splitDoctype_append {depth : Nat} {cs content rest : List Char}
    (h : splitDoctype depth cs = some (content, rest)) (later : List Char) :
    splitDoctype depth (content ++ '>' :: later) = some (content, later) := by
  induction cs generalizing depth content with
  | nil => simp [splitDoctype] at h
  | cons c cs ih =>
    rw [splitDoctype] at h
    by_cases hend : (c == '>' && depth == 0) = true
    · rw [if_pos hend] at h
      obtain ⟨rfl, -⟩ := Prod.mk.inj (Option.some.inj h)
      rw [Bool.and_eq_true] at hend
      rw [List.nil_append, splitDoctype, if_pos (by simp [hend.2])]
    · rw [if_neg hend] at h
      obtain ⟨⟨before, after⟩, hsplit, heq⟩ := Option.map_eq_some_iff.1 h
      obtain ⟨rfl, rfl⟩ := Prod.mk.inj heq
      rw [List.cons_append, splitDoctype, if_neg hend]
      dsimp only
      rw [ih hsplit]
      rfl

/-! ## Whole pieces -/

/-- Whether a piece is read as it stands, whatever follows it: text ends outside references, and
other pieces end where they are cut off. -/
def Piece.IsWhole : Piece → Prop
  | .text content => '<' ∉ content ∧ ¬ EndsInReference content
  | .openTag body => (∀ c ∈ body.head?, c ∉ ['!', '?', '/']) ∧ StaysInTag body
  | .closeTag body => StaysInTag body
  | .comment content => EndsAt ['-', '-', '>'] content
  | .cdata content => EndsAt [']', ']', '>'] content
  | .instruction content => content.head? ≠ some '>' ∧ EndsAt ['?', '>'] content
  | .doctype keyword content => isDoctypeKeyword keyword = true ∧
      splitDoctype 0 (content ++ ['>']) = some (content, [])

/-- The characters of some pieces. -/
def write (ps : List Piece) : List Char :=
  ps.flatMap Piece.source

theorem exists_of_isDoctypeKeyword {keyword : List Char} (h : isDoctypeKeyword keyword = true) :
    keyword.length = 7 ∧ ∃ c cs, keyword = c :: cs ∧ c ≠ '[' ∧ c ≠ '-' := by
  rw [isDoctypeKeyword, beq_iff_eq] at h
  have hlength := congrArg List.length h
  rw [List.length_map] at hlength
  obtain ⟨c, cs, rfl, hc, -⟩ := List.map_eq_cons_iff.1 h
  refine ⟨hlength, c, cs, rfl, ?_, ?_⟩ <;> rintro rfl <;> exact absurd hc (by decide)

theorem isWhole_text_nil : (Piece.text []).IsWhole :=
  ⟨List.not_mem_nil, fun ⟨_, _, h, _⟩ => by simp at h⟩

/-- Other pieces than text start with an angle bracket. -/
theorem Piece.head_append {p : Piece} (h : ∀ content, p ≠ .text content) (rest : List Char) :
    ∀ c ∈ (p.source ++ rest).head?, c = '<' := by
  cases p with
  | text content => exact absurd rfl (h content)
  | _ => simp [source]

theorem Piece.append_ne_nil {p : Piece} (h : ∀ content, p ≠ .text content) (rest : List Char) :
    p.source ++ rest ≠ [] := by
  cases p with
  | text content => exact absurd rfl (h content)
  | _ => simp [source]

/-- Whole pieces but text are cut off as they are. -/
theorem Piece.IsWhole.cut {p : Piece} (h : p.IsWhole) (htext : ∀ content, p ≠ .text content)
    (rest : List Char) : Piece.cut (p.source ++ rest) = .ok (p, rest) := by
  cases p with
  | text content => exact absurd rfl (htext content)
  | openTag body => simpa [source] using cut_openTag h.1 h.2 rest
  | closeTag body => simpa [source] using cut_closeTag h rest
  | comment content =>
    have hsplit := splitAround_of_endsAt (List.cons_ne_nil _ _) h rest
    simp only [List.append_assoc, List.cons_append, List.nil_append] at hsplit
    simp [source, Piece.cut, cutMarkup, cutDeclaration, hsplit]
  | cdata content =>
    have hsplit := splitAround_of_endsAt (List.cons_ne_nil _ _) h rest
    have hmark : cdataMark.isPrefixOf (cdataMark ++ (content ++ [']', ']', '>'] ++ rest)) = true :=
      List.isPrefixOf_iff_prefix.2 (List.prefix_append _ _)
    have hsource : (cdata content).source ++ rest =
        '<' :: '!' :: '[' :: (cdataMark ++ (content ++ [']', ']', '>'] ++ rest)) := by
      simp [source]
    rw [hsource, Piece.cut, cutMarkup, cutDeclaration, if_pos hmark, List.drop_left, hsplit]
  | instruction content =>
    obtain ⟨hhead, hend⟩ := h
    have hsplit := splitAround_of_endsAt (List.cons_ne_nil _ _) hend rest
    have hsource : (instruction content).source ++ rest =
        '<' :: '?' :: (content ++ ['?', '>'] ++ rest) := by
      simp [source]
    rw [hsource, Piece.cut, cutMarkup, hsplit]
    rintro tail htail
    cases content with
    | nil => simp at htail
    | cons c content =>
      obtain ⟨rfl, -⟩ := List.cons.inj htail
      exact hhead rfl
  | doctype keyword content =>
    obtain ⟨hkeyword, hend⟩ := h
    obtain ⟨hlength, c, cs, hcs, hbracket, hdash⟩ := exists_of_isDoctypeKeyword hkeyword
    have htake : (keyword ++ (content ++ '>' :: rest)).take 7 = keyword := by
      rw [← hlength, List.take_left]
    have hdrop : (keyword ++ (content ++ '>' :: rest)).drop 7 = content ++ '>' :: rest := by
      rw [← hlength, List.drop_left]
    have hsource : (doctype keyword content).source ++ rest =
        '<' :: '!' :: (keyword ++ (content ++ '>' :: rest)) := by
      simp [source]
    rw [hsource, Piece.cut, cutMarkup, cutDeclaration, htake, hdrop, if_pos hkeyword,
      splitDoctype_append hend]
    all_goals
      rintro tail htail
      rw [hcs] at htail
      first
        | exact hbracket (List.cons.inj htail).1
        | exact hdash (List.cons.inj htail).1

theorem Piece.isWhole_of_cutDeclaration {cs rest : List Char} {p : Piece}
    (h : cutDeclaration cs = .ok (p, rest)) : p.IsWhole := by
  unfold cutDeclaration at h
  split at h
  · split_ifs at h
    split at h
    · next hsplit =>
      obtain ⟨rfl, rfl⟩ := Prod.mk.inj (Except.ok.inj h)
      exact endsAt_of_splitAround (List.cons_ne_nil _ _) hsplit
    · simp at h
  · split at h
    · next hsplit =>
      obtain ⟨rfl, rfl⟩ := Prod.mk.inj (Except.ok.inj h)
      exact endsAt_of_splitAround (List.cons_ne_nil _ _) hsplit
    · simp at h
  · simp at h
  · split_ifs at h with hkeyword
    split at h
    · next hsplit =>
      obtain ⟨rfl, rfl⟩ := Prod.mk.inj (Except.ok.inj h)
      exact ⟨hkeyword, splitDoctype_append hsplit []⟩
    · simp at h

theorem Piece.isWhole_of_cutMarkup {cs rest : List Char} {p : Piece}
    (h : cutMarkup cs = .ok (p, rest)) : p.IsWhole := by
  unfold cutMarkup at h
  split at h
  · exact isWhole_of_cutDeclaration h
  · simp at h
  · next cs hhead =>
    split at h
    · next content after hsplit =>
      obtain ⟨rfl, rfl⟩ := Prod.mk.inj (Except.ok.inj h)
      refine ⟨fun hc => ?_, endsAt_of_splitAround (List.cons_ne_nil _ _) hsplit⟩
      obtain ⟨tail, rfl⟩ := List.head?_eq_some_iff.1 hc
      exact hhead _ (append_of_splitAround hsplit).symm
    · simp at h
  · split at h
    · next hsplit =>
      obtain ⟨rfl, rfl⟩ := Prod.mk.inj (Except.ok.inj h)
      exact staysInTag_of_splitTag hsplit
    · simp at h
  · next hbang _ hquery hslash =>
    split at h
    · next body after hsplit =>
      obtain ⟨rfl, rfl⟩ := Prod.mk.inj (Except.ok.inj h)
      refine ⟨fun c hc hmark => ?_, staysInTag_of_splitTag hsplit⟩
      obtain ⟨tail, rfl⟩ := List.head?_eq_some_iff.1 hc
      have hcs := append_of_splitTag hsplit
      simp only [List.mem_cons, List.not_mem_nil, or_false] at hmark
      rcases hmark with rfl | rfl | rfl
      · exact hbang _ hcs.symm
      · exact hquery _ hcs.symm
      · exact hslash _ hcs.symm
    · simp at h

theorem Piece.isWhole_of_cut {cs rest : List Char} {p : Piece} (h : Piece.cut cs = .ok (p, rest))
    (htext : ∀ content, p = .text content → ¬ EndsInReference content) : p.IsWhole := by
  unfold Piece.cut at h
  split at h
  · exact isWhole_of_cutMarkup h
  · obtain ⟨rfl, rfl⟩ := Prod.mk.inj (Except.ok.inj h)
    refine ⟨fun hc => ?_, htext _ rfl⟩
    simpa using List.all_eq_true.1 (List.all_takeWhile (l := cs) (p := (· != '<'))) '<' hc

theorem not_endsInReference_of_stepPiece {opened : List (List Char)} {start stop : Nat}
    {content : List Char} {step : Step}
    (h : stepPiece opened start stop (.text content) = .ok step) : ¬ EndsInReference content := by
  simp only [stepPiece] at h
  cases hread : unescape content with
  | error fault => simp [hread] at h
  | ok decoded => exact (unescape_eq_ok.1 hread).not_endsInReference

/-- Every document without fault is divided into whole pieces. -/
theorem exists_division_of_scanFrom {opened : List (List Char)} {position : Nat} {cs : List Char}
    (h : (scanFrom opened position cs).fault? = none) :
    ∃ ps, (∀ p ∈ ps, Piece.IsWhole p) ∧ write ps = cs := by
  fun_induction scanFrom opened position cs with
  | case1 => exact ⟨[], fun p hp => absurd hp List.not_mem_nil, rfl⟩
  | case2 => simp at h
  | case3 => simp at h
  | case4 opened position c cs piece rest hcut stop step hstep later ih =>
    obtain ⟨ps, hps, hwrite⟩ := ih h
    refine ⟨piece :: ps, List.forall_mem_cons.2 ⟨Piece.isWhole_of_cut hcut ?_, hps⟩, ?_⟩
    · rintro content rfl
      exact not_endsInReference_of_stepPiece hstep
    · rw [write, List.flatMap_cons]
      rw [write] at hwrite
      rw [hwrite, Piece.source_append_of_cut hcut]

end Markup

open Markup

/-! ## Reading pieces one after the other -/

/-- What is known after some pieces: the names that the scanner keeps, and what is built. -/
structure Progress where
  opened : List (List Char)
  builder : Builder

namespace Progress

/-- Nothing is read yet. -/
def start : Progress := ⟨[], .empty⟩

/-- Reads one piece, wherever it stands. -/
def advance (r : Registry) (st : Progress) (p : Piece) : Option Progress := do
  let step ← (stepPiece st.opened 0 0 p).toOption
  let builder ← (st.builder.step r step.token).toOption
  return ⟨step.opened, builder⟩

variable {r : Registry} (st : Progress)

/-- Text and sections of unescaped text add to the open element. -/
def addText (st : Progress) (cs : List Char) : Progress :=
  ⟨st.opened, st.builder.addText (String.ofList cs)⟩

@[simp] theorem addText_nil : st.addText [] = st := by
  obtain ⟨opened, _ | ⟨o, outer⟩, root?⟩ := st
  · rfl
  · simp [addText, Builder.addText]

theorem addText_append (cs ds : List Char) :
    st.addText (cs ++ ds) = (st.addText cs).addText ds := by
  obtain ⟨opened, _ | ⟨o, outer⟩, root?⟩ := st
  · rfl
  · simp [addText, Builder.addText, String.append_assoc]

theorem advance_text (content : List Char) :
    st.advance r (.text content) = (decoded? content).map st.addText := by
  simp only [advance, stepPiece, decoded?]
  cases unescape content <;> rfl

/-- Text that is cut outside references is read part by part. -/
theorem advance_text_append {cs : List Char} (hend : ¬ EndsInReference cs) (cs' : List Char) :
    st.advance r (.text (cs ++ cs')) =
      (st.advance r (.text cs)).bind fun st => st.advance r (.text cs') := by
  simp only [advance_text, decoded?_append hend]
  cases decoded? cs with
  | none => rfl
  | some front =>
    cases decoded? cs' with
    | none => rfl
    | some back => simp [addText_append]

/-- Where a piece stands matters for faults only. -/
theorem toOption_stepPiece (opened : List (List Char)) (start stop : Nat) (p : Piece) :
    (stepPiece opened start stop p).toOption = (stepPiece opened 0 0 p).toOption := by
  cases p with
  | text content =>
    simp only [stepPiece]
    cases unescape content <;> rfl
  | openTag body =>
    simp only [stepPiece, stepOpenTag]
    cases readTag (if body.getLast? == some '/' then body.dropLast else body) with
    | error fault => cases fault <;> rfl
    | ok tag => rfl
  | closeTag body =>
    simp only [stepPiece, stepCloseTag]
    cases opened with
    | nil => rfl
    | cons expected outer =>
      dsimp only
      split_ifs <;> rfl
  | doctype keyword content =>
    simp only [stepPiece]
    split_ifs <;> rfl
  | comment | cdata | instruction => rfl

end Progress

/-- What is built from the characters of a document. -/
def readFrom (r : Registry) (st : Progress) (position : Nat) (cs : List Char) : Option Builder :=
  let read := scanFrom st.opened position cs
  match read.fault? with
  | some _ => none
  | none => (read.tokens.foldlM (Builder.step r) st.builder).toOption

section

variable {r : Registry} {st : Progress}

theorem parseWith_eq_ok_iff_readFrom {s : String} {t : Node} : Node.parseWith r s = .ok t ↔
    ∃ b, readFrom r .start 0 (withoutByteOrderMark s.toList) = some b ∧ b.finish = .ok t := by
  have hread : readFrom r .start 0 (withoutByteOrderMark s.toList) =
      match (scan s).fault? with
      | some _ => none
      | none => ((scan s).tokens.foldlM (Builder.step r) .empty).toOption := rfl
  rw [hread, Node.parseWith]
  cases (scan s).fault? <;> cases (scan s).tokens.foldlM (Builder.step r) .empty <;>
    simp [Except.toOption]

theorem readFrom_nil (st : Progress) (position : Nat) :
    readFrom r st position [] = some st.builder := by
  rw [readFrom, scanFrom]
  rfl

/-- One piece further in a document. -/
theorem readFrom_of_cut {cs rest : List Char} {p : Piece} (hne : cs ≠ [])
    (hcut : Piece.cut cs = .ok (p, rest)) (st : Progress) (position : Nat) :
    ∃ stop, readFrom r st position cs = (st.advance r p).bind (readFrom r · stop rest) := by
  obtain ⟨stop, hscan⟩ := scanFrom_of_cut st.opened position hne hcut
  refine ⟨stop, ?_⟩
  have hstep := Progress.toOption_stepPiece st.opened position stop p
  rw [readFrom, hscan, Progress.advance, ← hstep]
  cases stepPiece st.opened position stop p with
  | error fault => rfl
  | ok step =>
    simp only [readFrom, List.foldlM_cons, Except.toOption, Option.pure_def, Option.bind_eq_bind,
      Option.bind_some]
    cases st.builder.step r step.token with
    | error e => cases (scanFrom step.opened stop rest).fault? <;> rfl
    | ok b => rfl

/-- Text up to the next tag is read as one piece, also if there is none. -/
theorem readFrom_text {before : List Char} (hbefore : (Piece.text before).IsWhole)
    (rest : List Char) (hrest : ∀ c ∈ rest.head?, c = '<') (st : Progress) (position : Nat) :
    ∃ stop, readFrom r st position (before ++ rest) =
      (st.advance r (.text before)).bind (readFrom r · stop rest) := by
  by_cases hnil : before = []
  · subst hnil
    exact ⟨position, by simp [Progress.advance_text]⟩
  · exact readFrom_of_cut (List.append_ne_nil_of_left_ne_nil hnil rest)
      (cut_text hnil hbefore.1 hrest) st position

/-- Whole pieces are read one after the other, behind any text. -/
theorem readFrom_write {ps : List Piece} (hps : ∀ p ∈ ps, p.IsWhole) {before : List Char}
    (hbefore : (Piece.text before).IsWhole) (st : Progress) (position : Nat) :
    readFrom r st position (before ++ write ps) =
      ((Piece.text before :: ps).foldlM (Progress.advance r) st).map Progress.builder := by
  induction ps generalizing before st position with
  | nil =>
    obtain ⟨stop, hread⟩ := readFrom_text (r := r) hbefore [] (by simp) st position
    rw [write, List.flatMap_nil, hread, List.foldlM_cons]
    cases st.advance r (.text before) <;> simp [readFrom_nil]
  | cons p ps ih =>
    rw [List.forall_mem_cons] at hps
    obtain ⟨hp, hps⟩ := hps
    rw [write, List.flatMap_cons, ← write]
    by_cases htext : ∃ content, p = .text content
    · obtain ⟨content, rfl⟩ := htext
      have hboth : (Piece.text (before ++ content)).IsWhole :=
        ⟨fun hc => (List.mem_append.1 hc).elim hbefore.1 hp.1,
          not_endsInReference_append hbefore.2 hp.2⟩
      rw [Piece.source, ← List.append_assoc, ih hps hboth, List.foldlM_cons,
        Progress.advance_text_append st hbefore.2, List.foldlM_cons]
      simp only [List.foldlM_cons, Option.bind_eq_bind, Option.bind_assoc]
    · -- The piece itself ends the text before it.
      rw [not_exists] at htext
      obtain ⟨start, hread⟩ := readFrom_text (r := r) hbefore (p.source ++ write ps)
        (p.head_append htext (write ps)) st position
      rw [hread, List.foldlM_cons]
      cases st.advance r (.text before) with
      | none => rfl
      | some st =>
        obtain ⟨stop, hread⟩ := readFrom_of_cut (r := r) (p.append_ne_nil htext (write ps))
          (hp.cut htext (write ps)) st start
        have hlater (st : Progress) := ih hps isWhole_text_nil st stop
        simp only [List.nil_append, List.foldlM_cons, Progress.advance_text, decoded?_nil,
          Option.map_some, Progress.addText_nil, Option.bind_eq_bind, Option.bind_some] at hlater ⊢
        rw [hread]
        cases st.advance r p with
        | none => rfl
        | some st => exact hlater st

theorem isWhole_text_mark : (Piece.text ['\uFEFF']).IsWhole :=
  ⟨by decide, (Decodes.char (by decide) .nil).not_endsInReference⟩

theorem withoutByteOrderMark_of_head {cs : List Char} (h : cs.head? ≠ some '\uFEFF') :
    withoutByteOrderMark cs = cs := by
  unfold withoutByteOrderMark
  split
  · exact absurd rfl h
  · rfl

/-- A byte order mark outside the root makes no difference. -/
theorem exists_without_byteOrderMark {ps : List Piece} (hps : ∀ p ∈ ps, p.IsWhole) :
    ∃ qs, (∀ q ∈ qs, q.IsWhole) ∧ write qs = withoutByteOrderMark (write ps) ∧
      qs.foldlM (Progress.advance r) .start = ps.foldlM (Progress.advance r) .start := by
  by_cases hmark : (write ps).head? = some '\uFEFF'
  · induction ps with
    | nil => simp [write] at hmark
    | cons p ps ih =>
      obtain ⟨hp, hlater⟩ := List.forall_mem_cons.1 hps
      rw [write, List.flatMap_cons, ← write] at hmark ⊢
      by_cases htext : ∃ content, p = .text content
      · obtain ⟨_ | ⟨c, content⟩, rfl⟩ := htext
        · obtain ⟨qs, hqs, hwrite, hrun⟩ := ih hlater hmark
          refine ⟨qs, hqs, hwrite, ?_⟩
          rw [hrun, List.foldlM_cons, Progress.advance_text]
          simp
        · obtain rfl : c = '\uFEFF' := Option.some.inj hmark
          have hcontent : (Piece.text content).IsWhole :=
            ⟨fun hc => hp.1 (List.mem_cons_of_mem _ hc), fun h => hp.2 (h.append ['\uFEFF'])⟩
          refine ⟨.text content :: ps, List.forall_mem_cons.2 ⟨hcontent, hlater⟩, rfl, ?_⟩
          have hskip : Progress.start.advance r (.text ['\uFEFF']) = some .start := by
            rw [Progress.advance_text, decoded?_eq_some.2 (Decodes.char (by decide) .nil)]
            rfl
          have happend := Progress.advance_text_append (r := r) .start isWhole_text_mark.2 content
          rw [hskip, Option.bind_some] at happend
          rw [List.foldlM_cons, List.foldlM_cons]
          exact congrArg (· >>= _) happend.symm
      · rw [not_exists] at htext
        have := p.head_append htext (write ps) '\uFEFF' hmark
        exact absurd this (by decide)
  · refine ⟨ps, hps, ?_, rfl⟩
    exact (withoutByteOrderMark_of_head hmark).symm

/-- A document divided into whole pieces is read piece by piece. -/
theorem Node.parseWith_write {ps : List Piece} (hps : ∀ p ∈ ps, p.IsWhole) {t : Node} :
    Node.parseWith r (String.ofList (write ps)) = .ok t ↔
      ∃ st, ps.foldlM (Progress.advance r) .start = some st ∧ st.builder.finish = .ok t := by
  obtain ⟨qs, hqs, hwrite, hrun⟩ := exists_without_byteOrderMark (r := r) hps
  have hread := readFrom_write (r := r) hqs isWhole_text_nil .start 0
  rw [List.foldlM_cons, Progress.advance_text, List.nil_append] at hread
  rw [parseWith_eq_ok_iff_readFrom, String.toList_ofList, ← hwrite, hread]
  simp [hrun]

/-- Every document that is read is divided into whole pieces. -/
theorem Node.exists_division {s : String} {t : Node} (h : Node.parseWith r s = .ok t) :
    ∃ ps, (∀ p ∈ ps, Piece.IsWhole p) ∧ write ps = s.toList := by
  obtain ⟨ps, hps, hwrite⟩ := exists_division_of_scanFrom (parseWith_eq_ok.1 h).1
  by_cases hmark : s.toList.head? = some '\uFEFF'
  · obtain ⟨cs, hcs⟩ := List.head?_eq_some_iff.1 hmark
    refine ⟨.text ['\uFEFF'] :: ps, List.forall_mem_cons.2 ⟨isWhole_text_mark, hps⟩, ?_⟩
    rw [write, List.flatMap_cons, ← write, hwrite, hcs]
    rfl
  · exact ⟨ps, hps, hwrite.trans (withoutByteOrderMark_of_head hmark)⟩

end

end CitationLocale
