import CitationLocale.Proofs.BuiltTree
import CitationLocale.Proofs.Division

/-!
# Documents that differ in spelling only

A document may be respelled by comments and processing instructions, which can stand between any two
tokens and inside text, and by other spellings of the same character data (`Respelled`). A document
that is read is read as the same tree however it is respelled (`Node.parseWith_of_respelled`).
-/

namespace CitationLocale

open Markup

namespace Markup

/-- Whether a piece is a comment or a processing instruction. -/
def Piece.IsRemark : Piece → Prop
  | .comment _ => True
  | .instruction _ => True
  | _ => False

/-- The characters that a piece of character data stands for. -/
def Piece.characters? : Piece → Option (List Char)
  | .text content => decoded? content
  | .cdata content => some content
  | _ => none

/-- The characters that a run of character data stands for. -/
def characters? : List Piece → Option (List Char)
  | [] => some []
  | p :: run => p.characters?.bind fun front => (characters? run).map fun back => front ++ back

/-- A document is respelled by remarks between two of its pieces or inside text, and by writing a
run of character data in another way. -/
inductive Respelled : List Char → List Char → Prop
  | refl (cs : List Char) : Respelled cs cs
  | between {before after : List Piece} {p : Piece} : (∀ q ∈ before, q.IsWhole) →
      (∀ q ∈ after, q.IsWhole) → p.IsWhole → p.IsRemark →
      Respelled (write (before ++ after)) (write (before ++ p :: after))
  | inside {before after : List Piece} {cs ds : List Char} {p : Piece} :
      (∀ q ∈ before, q.IsWhole) → (∀ q ∈ after, q.IsWhole) → (Piece.text (cs ++ ds)).IsWhole →
      ¬ EndsInReference cs → p.IsWhole → p.IsRemark →
      Respelled (write (before ++ .text (cs ++ ds) :: after))
        (write (before ++ .text cs :: p :: .text ds :: after))
  | data {before run run' after : List Piece} {cs : List Char} : (∀ q ∈ before, q.IsWhole) →
      (∀ q ∈ after, q.IsWhole) → (∀ q ∈ run, q.IsWhole) → (∀ q ∈ run', q.IsWhole) →
      characters? run = some cs → characters? run' = some cs →
      Respelled (write (before ++ run ++ after)) (write (before ++ run' ++ after))
  | trans {cs ds es : List Char} : Respelled cs ds → Respelled ds es → Respelled cs es

/-- Text that is cut outside references makes two whole pieces. -/
theorem isWhole_text_of_append {cs ds : List Char} (h : (Piece.text (cs ++ ds)).IsWhole)
    (hend : ¬ EndsInReference cs) : (Piece.text cs).IsWhole ∧ (Piece.text ds).IsWhole :=
  ⟨⟨fun hc => h.1 (List.mem_append_left _ hc), hend⟩,
    fun hc => h.1 (List.mem_append_right _ hc), fun hds => h.2 (hds.append cs)⟩

end Markup

/-! ## Reading respelled documents -/

namespace Progress

variable {r : Registry}

theorem advance_of_isRemark {p : Piece} (h : p.IsRemark) (st : Progress) :
    st.advance r p = some st := by
  cases p with
  | comment | instruction => rfl
  | text | openTag | closeTag | cdata | doctype => exact h.elim

theorem advance_of_characters? {p : Piece} {cs : List Char} (h : p.characters? = some cs)
    (st : Progress) : st.advance r p = some (st.addText cs) := by
  cases p with
  | text content =>
    have hdecoded : decoded? content = some cs := h
    rw [advance_text, hdecoded, Option.map_some]
  | cdata content =>
    obtain rfl := Option.some.inj h
    rfl
  | openTag | closeTag | comment | instruction | doctype => simp [Piece.characters?] at h

/-- Of character data only the characters count that it stands for. -/
theorem foldlM_of_characters? {run : List Piece} {cs : List Char} (h : characters? run = some cs)
    (st : Progress) : run.foldlM (advance r) st = some (st.addText cs) := by
  induction run generalizing cs st with
  | nil =>
    obtain rfl := Option.some.inj h
    rw [addText_nil]
    rfl
  | cons p run ih =>
    obtain ⟨front, hfront, h⟩ := Option.bind_eq_some_iff.1 h
    obtain ⟨back, hback, rfl⟩ := Option.map_eq_some_iff.1 h
    rw [List.foldlM_cons, advance_of_characters? hfront, addText_append]
    exact ih hback _

end Progress

variable {r : Registry} {t : Node}

/-- Divided documents in which other pieces stand for the same between the same ones are read as the
same tree. -/
theorem Node.parseWith_write_congr (middle middle' : List Piece) {before after : List Piece}
    (hbefore : ∀ p ∈ before, p.IsWhole) (hmiddle : ∀ p ∈ middle, p.IsWhole)
    (hmiddle' : ∀ p ∈ middle', p.IsWhole) (hafter : ∀ p ∈ after, p.IsWhole)
    (hrun : ∀ st : Progress, middle'.foldlM (Progress.advance r) st =
      middle.foldlM (Progress.advance r) st)
    (h : Node.parseWith r (String.ofList (write (before ++ (middle ++ after)))) = .ok t) :
    Node.parseWith r (String.ofList (write (before ++ (middle' ++ after)))) = .ok t := by
  have hwhole {ps : List Piece} (hps : ∀ p ∈ ps, p.IsWhole) :
      ∀ p ∈ before ++ (ps ++ after), p.IsWhole :=
    List.forall_mem_append.2 ⟨hbefore, List.forall_mem_append.2 ⟨hps, hafter⟩⟩
  rw [parseWith_write (hwhole hmiddle)] at h
  rw [parseWith_write (hwhole hmiddle')]
  simpa only [List.foldlM_append, hrun] using h

/-- A document that differs from one that is read in spelling only is read as the same tree. -/
theorem Node.parseWith_ofList_of_respelled {cs cs' : List Char} (h : Respelled cs cs')
    (hparse : Node.parseWith r (String.ofList cs) = .ok t) :
    Node.parseWith r (String.ofList cs') = .ok t := by
  induction h with
  | refl => exact hparse
  | trans _ _ ih ih' => exact ih' (ih hparse)
  | between hbefore hafter hp hremark =>
    refine parseWith_write_congr [] [_] hbefore ?_ ?_ hafter ?_ hparse
    · exact fun q hq => absurd hq List.not_mem_nil
    · exact List.forall_mem_singleton.2 hp
    · exact fun st => by simp [Progress.advance_of_isRemark hremark]
  | @inside before after cs ds p hbefore hafter hwhole hend hp hremark =>
    obtain ⟨hcs, hds⟩ := isWhole_text_of_append hwhole hend
    refine parseWith_write_congr [_] [_, _, _] hbefore ?_ ?_ hafter ?_ hparse
    · exact List.forall_mem_singleton.2 hwhole
    · simp [hcs, hp, hds]
    · exact fun st => by simp [Progress.advance_of_isRemark hremark,
        Progress.advance_text_append st hend]
  | data hbefore hafter hrun hrun' hcs hcs' =>
    rw [List.append_assoc] at hparse ⊢
    refine parseWith_write_congr _ _ hbefore hrun hrun' hafter (fun st => ?_) hparse
    rw [Progress.foldlM_of_characters? hcs, Progress.foldlM_of_characters? hcs']

/-- Every document that is read is divided into whole pieces, and it is read as the same tree
however it is respelled. -/
theorem Node.parseWith_of_respelled (r : Registry) (s : String) (t : Node)
    (h : Node.parseWith r s = .ok t) :
    (∃ ps, (∀ p ∈ ps, Piece.IsWhole p) ∧ write ps = s.toList) ∧
      ∀ s' : String, Respelled s.toList s'.toList → ∃ t', Node.parseWith r s' = .ok t' ∧
        t'.compare? t = some .eq ∧ t'.toXml = t.toXml := by
  refine ⟨Node.exists_division h, fun s' hs => ⟨t, ?_, ?_, rfl⟩⟩
  · rw [← String.ofList_toList (s := s)] at h
    rw [← String.ofList_toList (s := s')]
    exact parseWith_ofList_of_respelled hs h
  · exact compare?_self ((everywhere_parseWith h).mono fun n hn => hn.isSound)

/-- A comment before the root, an instruction inside text, and a reference in place of which a
section of unescaped text stands. -/
theorem Node.parseWith_of_respelled_reference :
    Respelled "<a>x&amp;y<b/></a>".toList "<!--c--><a>x<![CDATA[&]]><?p?>y<b/></a>".toList ∧
      ∃ t t', Node.parseWith .builtins "<a>x&amp;y<b/></a>" = .ok t ∧
        Node.parseWith .builtins "<!--c--><a>x<![CDATA[&]]><?p?>y<b/></a>" = .ok t' ∧
        t'.compare? t = some .eq ∧ t'.toXml = t.toXml := by
  have hbefore : ∀ p ∈ [Piece.openTag ['a'], .text ['x']], p.IsWhole := by
    have hopen : StaysInTag ['a'] := staysInTag_of_plain (by simp)
    have hx : ¬ EndsInReference ['x'] := (Decodes.char (by decide) .nil).not_endsInReference
    simp [Piece.IsWhole, hopen, hx]
  have hafter : ∀ p ∈ [Piece.text ['y'], .openTag ['b', '/'], .closeTag ['a']], p.IsWhole := by
    have hclose : StaysInTag ['a'] := staysInTag_of_plain (by simp)
    have hempty : StaysInTag ['b', '/'] := staysInTag_of_plain (by simp)
    have hy : ¬ EndsInReference ['y'] := (Decodes.char (by decide) .nil).not_endsInReference
    simp [Piece.IsWhole, hclose, hempty, hy]
  have hreference : decoded? ['&', 'a', 'm', 'p', ';'] = some ['&'] := by decide +kernel
  have hrun : ∀ p ∈ [Piece.text ['&', 'a', 'm', 'p', ';']], p.IsWhole := by
    have hend := (decoded?_eq_some.1 hreference).not_endsInReference
    simp [Piece.IsWhole, hend]
  have hcdata : (Piece.cdata ['&']).IsWhole := by
    unfold Piece.IsWhole EndsAt
    decide
  have hrun' : ∀ p ∈ [Piece.cdata ['&']], p.IsWhole := List.forall_mem_singleton.2 hcdata
  have hinstruction : (Piece.instruction ['p']).IsWhole := by
    unfold Piece.IsWhole EndsAt
    decide
  have hcomment : (Piece.comment ['c']).IsWhole := by
    unfold Piece.IsWhole EndsAt
    decide
  have hspelled : Respelled "<a>x&amp;y<b/></a>".toList
      "<!--c--><a>x<![CDATA[&]]><?p?>y<b/></a>".toList := by
    have hcharacters : characters? [Piece.text ['&', 'a', 'm', 'p', ';']] = some ['&'] := by
      simp [characters?, Piece.characters?, hreference]
    have hnil : ∀ p ∈ ([] : List Piece), p.IsWhole := fun p hp => absurd hp List.not_mem_nil
    have hdata := Respelled.data hbefore hafter hrun hrun' hcharacters rfl
    have hinside := Respelled.between (List.forall_mem_append.2 ⟨hbefore, hrun'⟩) hafter
      hinstruction trivial
    have hfront := Respelled.between hnil
      (List.forall_mem_append.2 ⟨List.forall_mem_append.2 ⟨hbefore, hrun'⟩,
        List.forall_mem_cons.2 ⟨hinstruction, hafter⟩⟩) hcomment trivial
    exact hdata.trans (hinside.trans hfront)
  have hscan : scan "<a>x&amp;y<b/></a>" =
      ⟨[.start "a" [], .text "x&y", .empty "b" [], .close "a"], none⟩ := by
    decide +kernel
  have hbuild : (Item.element "a" [] [.text "x&y", .empty "b" []]).build .builtins =
      .ok (.element none "a" .empty [.text (.raw "x&y"), .element none "b" .empty []]) := by
    rfl
  have hparse := parse_of_scan _ hscan rfl rfl hbuild
  obtain ⟨-, hread⟩ := parseWith_of_respelled _ _ _ hparse
  obtain ⟨t', hparse', hcompare, hxml⟩ := hread _ hspelled
  exact ⟨hspelled, _, t', hparse, hparse', hcompare, hxml⟩

end CitationLocale
