/-!
# Pieces of a document

A document is a row of pieces: runs of text and constructs between angle brackets. Cutting off
the first piece only looks for its end. It loses nothing: the source of the piece and the rest
together are the document.
-/

namespace CitationLocale.Markup

/-- A piece of a document, without the marks around it. -/
inductive Piece where
  | text (content : List Char)
  | openTag (body : List Char)
  | closeTag (body : List Char)
  | comment (content : List Char)
  | cdata (content : List Char)
  | instruction (content : List Char)
  | doctype (keyword content : List Char)
deriving DecidableEq, Repr

/-- What can be wrong with the ends of a piece. -/
inductive CutFault where
  | unknownMarkup
  | unclosedInstruction
  | unclosedComment
  | unclosedDoctype
  | unclosedCdata
  | unclosedTag
deriving DecidableEq, Repr

/-- The word that opens a section of unescaped text. -/
def cdataMark : List Char := ['C', 'D', 'A', 'T', 'A', '[']

/-- The characters of a piece in the document. -/
def Piece.source : Piece → List Char
  | .text content => content
  | .openTag body => '<' :: body ++ ['>']
  | .closeTag body => '<' :: '/' :: body ++ ['>']
  | .comment content => '<' :: '!' :: '-' :: '-' :: content ++ ['-', '-', '>']
  | .cdata content => '<' :: '!' :: '[' :: cdataMark ++ content ++ [']', ']', '>']
  | .instruction content => '<' :: '?' :: content ++ ['?', '>']
  | .doctype keyword content => '<' :: '!' :: keyword ++ content ++ ['>']

/-! ## Finding the end of a piece -/

/-- Splits a text around the first occurrence of a mark. -/
def splitAround (mark : List Char) : List Char → Option (List Char × List Char)
  | [] => none
  | c :: cs =>
    if mark.isPrefixOf (c :: cs) then some ([], (c :: cs).drop mark.length)
    else (splitAround mark cs).map fun (before, after) => (c :: before, after)

/-- Splits a tag at the `>` that ends it. Inside quotes a `>` does not count; `quote?` is the
quote that is open. -/
def splitTag (quote? : Option Char) : List Char → Option (List Char × List Char)
  | [] => none
  | c :: cs =>
    if quote?.isNone && c == '>' then some ([], cs)
    else
      let next? :=
        match quote? with
        | none => if c == '"' || c == '\'' then some c else none
        | some q => if c == q then none else some q
      (splitTag next? cs).map fun (before, after) => (c :: before, after)

/-- Splits a document type declaration at the `>` that ends it, outside `depth` further pairs of
angle brackets. -/
def splitDoctype (depth : Nat) : List Char → Option (List Char × List Char)
  | [] => none
  | c :: cs =>
    if c == '>' && depth == 0 then some ([], cs)
    else
      let next := if c == '<' then depth + 1 else if c == '>' then depth - 1 else depth
      (splitDoctype next cs).map fun (before, after) => (c :: before, after)

/-- Whether a word spells `DOCTYPE`, in any case. -/
def isDoctypeKeyword (word : List Char) : Bool :=
  word.map Char.toUpper == ['D', 'O', 'C', 'T', 'Y', 'P', 'E']

/-- Cuts a construct that starts with `<!`, given what follows this mark. -/
def cutDeclaration : List Char → Except CutFault (Piece × List Char)
  | '[' :: cs =>
    if cdataMark.isPrefixOf cs then
      match splitAround [']', ']', '>'] (cs.drop cdataMark.length) with
      | some (content, rest) => .ok (.cdata content, rest)
      | none => .error .unclosedCdata
    else .error .unclosedCdata
  | '-' :: '-' :: cs =>
    match splitAround ['-', '-', '>'] cs with
    | some (content, rest) => .ok (.comment content, rest)
    | none => .error .unclosedComment
  | '-' :: _ => .error .unclosedComment
  | cs =>
    if isDoctypeKeyword (cs.take 7) then
      match splitDoctype 0 (cs.drop 7) with
      | some (content, rest) => .ok (.doctype (cs.take 7) content, rest)
      | none => .error .unclosedDoctype
    else if cs.head? = some 'D' ∨ cs.head? = some 'd' then .error .unclosedDoctype
    else .error .unknownMarkup

/-- Cuts a construct that starts with `<`, given what follows this mark. -/
def cutMarkup : List Char → Except CutFault (Piece × List Char)
  | '!' :: cs => cutDeclaration cs
  | '?' :: '>' :: _ => .error .unclosedInstruction
  | '?' :: cs =>
    match splitAround ['?', '>'] cs with
    | some (content, rest) => .ok (.instruction content, rest)
    | none => .error .unclosedInstruction
  | '/' :: cs =>
    match splitTag none cs with
    | some (body, rest) => .ok (.closeTag body, rest)
    | none => .error .unclosedTag
  | cs =>
    match splitTag none cs with
    | some (body, rest) => .ok (.openTag body, rest)
    | none => .error .unclosedTag

/-- Cuts the first piece off a document. -/
def Piece.cut (cs : List Char) : Except CutFault (Piece × List Char) :=
  match cs with
  | '<' :: markup => cutMarkup markup
  | _ => .ok (.text (cs.takeWhile (· != '<')), cs.dropWhile (· != '<'))

/-! ## Nothing is lost -/

theorem append_of_splitAround {mark cs before after : List Char}
    (h : splitAround mark cs = some (before, after)) : before ++ mark ++ after = cs := by
  induction cs generalizing before after with
  | nil => simp [splitAround] at h
  | cons c cs ih =>
    rw [splitAround] at h
    split at h
    · next hmark =>
      obtain ⟨t, ht⟩ := List.isPrefixOf_iff_prefix.1 hmark
      simp only [Option.some.injEq, Prod.mk.injEq] at h
      obtain ⟨rfl, rfl⟩ := h
      simp [← ht]
    · obtain ⟨⟨b, a⟩, hsplit, heq⟩ := Option.map_eq_some_iff.1 h
      simp only [Prod.mk.injEq] at heq
      obtain ⟨rfl, rfl⟩ := heq
      simpa using ih hsplit

theorem append_of_splitTag {quote? : Option Char} {cs before after : List Char}
    (h : splitTag quote? cs = some (before, after)) : before ++ '>' :: after = cs := by
  induction cs generalizing quote? before after with
  | nil => simp [splitTag] at h
  | cons c cs ih =>
    unfold splitTag at h
    split at h
    · next hend =>
      simp only [Bool.and_eq_true, beq_iff_eq] at hend
      simp only [Option.some.injEq, Prod.mk.injEq] at h
      obtain ⟨rfl, rfl⟩ := h
      simp [hend.2]
    · obtain ⟨⟨b, a⟩, hsplit, heq⟩ := Option.map_eq_some_iff.1 h
      simp only [Prod.mk.injEq] at heq
      obtain ⟨rfl, rfl⟩ := heq
      simpa using ih hsplit

theorem append_of_splitDoctype {depth : Nat} {cs before after : List Char}
    (h : splitDoctype depth cs = some (before, after)) : before ++ '>' :: after = cs := by
  induction cs generalizing depth before after with
  | nil => simp [splitDoctype] at h
  | cons c cs ih =>
    rw [splitDoctype] at h
    split at h
    · next hend =>
      simp only [Bool.and_eq_true, beq_iff_eq] at hend
      simp only [Option.some.injEq, Prod.mk.injEq] at h
      obtain ⟨rfl, rfl⟩ := h
      simp [hend.1]
    · obtain ⟨⟨b, a⟩, hsplit, heq⟩ := Option.map_eq_some_iff.1 h
      simp only [Prod.mk.injEq] at heq
      obtain ⟨rfl, rfl⟩ := heq
      simpa using ih hsplit

theorem source_append_of_cutDeclaration {cs rest : List Char} {p : Piece}
    (h : cutDeclaration cs = .ok (p, rest)) : p.source ++ rest = '<' :: '!' :: cs := by
  unfold cutDeclaration at h
  split at h
  · next cs =>
    split at h
    · next hmark =>
      obtain ⟨t, ht⟩ := List.isPrefixOf_iff_prefix.1 hmark
      split at h
      · next content after hsplit =>
        simp only [Except.ok.injEq, Prod.mk.injEq] at h
        obtain ⟨rfl, rfl⟩ := h
        have := append_of_splitAround hsplit
        subst ht
        simp at this
        simp [Piece.source, ← this]
      · simp at h
    · simp at h
  · split at h
    · next content after hsplit =>
      simp only [Except.ok.injEq, Prod.mk.injEq] at h
      obtain ⟨rfl, rfl⟩ := h
      simp [Piece.source, ← append_of_splitAround hsplit]
    · simp at h
  · simp at h
  · split at h
    · split at h
      · next content after hsplit =>
        simp only [Except.ok.injEq, Prod.mk.injEq] at h
        obtain ⟨rfl, rfl⟩ := h
        simp [Piece.source, append_of_splitDoctype hsplit]
      · simp at h
    · split at h <;> simp at h

theorem source_append_of_cutMarkup {cs rest : List Char} {p : Piece}
    (h : cutMarkup cs = .ok (p, rest)) : p.source ++ rest = '<' :: cs := by
  unfold cutMarkup at h
  split at h
  · exact source_append_of_cutDeclaration h
  · simp at h
  · split at h
    · next hsplit =>
      simp only [Except.ok.injEq, Prod.mk.injEq] at h
      obtain ⟨rfl, rfl⟩ := h
      simp [Piece.source, ← append_of_splitAround hsplit]
    · simp at h
  · split at h
    · next hsplit =>
      simp only [Except.ok.injEq, Prod.mk.injEq] at h
      obtain ⟨rfl, rfl⟩ := h
      simp [Piece.source, ← append_of_splitTag hsplit]
    · simp at h
  · split at h
    · next hsplit =>
      simp only [Except.ok.injEq, Prod.mk.injEq] at h
      obtain ⟨rfl, rfl⟩ := h
      simp [Piece.source, ← append_of_splitTag hsplit]
    · simp at h

/-- The source of the first piece and the rest make up the document. -/
theorem Piece.source_append_of_cut {cs rest : List Char} {p : Piece}
    (h : Piece.cut cs = .ok (p, rest)) : p.source ++ rest = cs := by
  unfold Piece.cut at h
  split at h
  · exact source_append_of_cutMarkup h
  · simp only [Except.ok.injEq, Prod.mk.injEq] at h
    obtain ⟨rfl, rfl⟩ := h
    exact List.takeWhile_append_dropWhile

theorem source_ne_nil_of_cutMarkup {cs rest : List Char} {p : Piece}
    (h : cutMarkup cs = .ok (p, rest)) : p.source ≠ [] := by
  cases p with
  | text content =>
    unfold cutMarkup cutDeclaration at h
    repeat' split at h
    all_goals simp at h
  | _ => simp [Piece.source]

/-- Cutting a piece off makes progress. -/
theorem Piece.length_lt_of_cut {cs rest : List Char} {p : Piece} (hne : cs ≠ [])
    (h : Piece.cut cs = .ok (p, rest)) : rest.length < cs.length := by
  have hsource : p.source ≠ [] := by
    unfold Piece.cut at h
    split at h
    · exact source_ne_nil_of_cutMarkup h
    · next hstart =>
      obtain ⟨c, cs, rfl⟩ := List.exists_cons_of_ne_nil hne
      have hc : c ≠ '<' := fun hc => hstart cs (by rw [hc])
      simp only [Except.ok.injEq, Prod.mk.injEq] at h
      obtain ⟨rfl, rfl⟩ := h
      simp [Piece.source, hc]
  have hpos : 0 < p.source.length := List.length_pos_iff.2 hsource
  rw [← source_append_of_cut h, List.length_append]
  omega

end CitationLocale.Markup
