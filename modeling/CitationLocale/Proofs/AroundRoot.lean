import CitationLocale.Proofs.Respelling

/-!
# Around the root

What a document may hold outside its root. A document that is read has exactly one element outside
all others, and the tree depends on this element alone (`Markup.Item.buildRoot`). A document
without such an element or with a second one is not read, but everything else outside the root is
passed over, character data included: around a document that is read any pieces may stand that are
no tags and have no fault (`Node.parseWith_around_root`), also text that is not blank
(`Node.parse_passes_over_text`).
-/

namespace CitationLocale

open Markup Text

variable {r : Registry} {t : Node}

/-! ## The elements outside all others -/

namespace Markup.Item

/-- What is read of a document with given elements outside all others. -/
def buildRoot (r : Registry) : List Item → Except Error Node
  | [] => .error .emptyDocument
  | [root] => root.build r
  | root :: second :: _ => do
    let _ ← root.build r
    let _ ← second.build r
    .error .multipleRoots

/-- Making each of some elements a root succeeds only for a single one. -/
theorem foldlM_attach_finish (r : Registry) (items : List Item) :
    (items.foldlM (fun (b : Builder) i => i.build r >>= b.attach) ⟨[], none⟩ >>= Builder.finish) =
      buildRoot r items := by
  match items with
  | [] => rfl
  | [root] =>
    rw [buildRoot, List.foldlM_cons]
    cases root.build r <;> rfl
  | root :: second :: later =>
    rw [buildRoot, List.foldlM_cons]
    cases root.build r with
    | error e => rfl
    | ok n =>
      simp only [Result.ok_bind, Builder.attach, List.foldlM_cons]
      cases second.build r <;> rfl

/-- In a row with one element there are only other items before and behind it. -/
theorem elements_eq_singleton_iff {row : List Item} {root : Item} : elements row = [root] ↔
    ∃ before after, row = before ++ root :: after ∧ root.isElement = true ∧
      ∀ i ∈ before ++ after, i.isElement = false := by
  rw [elements, List.filter_eq_cons_iff]
  simp only [List.filter_eq_nil_iff, List.forall_mem_append, Bool.not_eq_true]
  constructor
  · rintro ⟨before, after, rfl, hbefore, hroot, hafter⟩
    exact ⟨before, after, rfl, hroot, hbefore, hafter⟩
  · rintro ⟨before, after, rfl, hroot, hbefore, hafter⟩
    exact ⟨before, after, rfl, hbefore, hroot, hafter⟩

end Markup.Item

/-- A document in which all tags are closed is read into what is built from its elements outside all
others; nothing else that stands there has a say. -/
theorem parseWith_eq_buildRoot {s : String} {row : List Item} (hfault : (scan s).fault? = none)
    (hrow : forest? (scan s).tokens = some row) :
    Node.parseWith r s = Item.buildRoot r (Item.elements row) := by
  have hitems : (scan s).tokens.foldlM (Builder.step r) .empty =
      (Item.rowTokens row).foldlM (Builder.step r) .empty := by
    rw [← plain_of_forest? hrow, List.foldlM_map]
    simp only [Builder.step_plain]
  rw [Node.parseWith, hfault, hitems, Builder.empty, Item.foldlM_rowTokens]
  exact Item.foldlM_attach_finish r _

/-! ## Pieces around a document -/

/-- Whether a piece can be read outside all elements without making one: it is no tag and has no
fault. -/
def Markup.Piece.IsOutside : Piece → Prop
  | .text content => (decoded? content).isSome = true
  | .doctype _ content => content.all isMarkupSpace = false
  | .cdata _ => True
  | .comment _ => True
  | .instruction _ => True
  | .openTag _ => False
  | .closeTag _ => False

/-- A builder that is done has no open element, and has a root. -/
theorem Builder.finish_eq_ok {b : Builder} : b.finish = .ok t ↔ b = ⟨[], some t⟩ := by
  obtain ⟨_ | ⟨o, outer⟩, _ | root⟩ := b <;> simp [finish]

namespace Progress

/-- Outside all elements a piece that is no tag leaves everything as it is. -/
theorem advance_of_isOutside {p : Piece} (h : p.IsOutside) (opened : List (List Char))
    (root? : Option Node) : advance r ⟨opened, ⟨[], root?⟩⟩ p = some ⟨opened, ⟨[], root?⟩⟩ := by
  cases p with
  | text content =>
    obtain ⟨cs, hcs⟩ := Option.isSome_iff_exists.1 h
    rw [advance_text, hcs]
    rfl
  | doctype keyword content =>
    have hname : content.all isMarkupSpace = false := h
    simp [advance, stepPiece, hname, Builder.step, Except.toOption]
  | cdata | comment | instruction => rfl
  | openTag | closeTag => exact h.elim

theorem foldlM_of_isOutside {ps : List Piece} (h : ∀ p ∈ ps, p.IsOutside)
    (opened : List (List Char)) (root? : Option Node) :
    ps.foldlM (advance r) ⟨opened, ⟨[], root?⟩⟩ = some ⟨opened, ⟨[], root?⟩⟩ := by
  induction ps with
  | nil => rfl
  | cons p ps ih =>
    obtain ⟨hp, hps⟩ := List.forall_mem_cons.1 h
    rw [List.foldlM_cons, advance_of_isOutside hp]
    exact ih hps

end Progress

namespace Node

/-- A document that is read is read as the same tree with other pieces around it. -/
theorem parseWith_write_around {s : String} {front back : List Piece}
    (hwhole : ∀ p ∈ front ++ back, p.IsWhole) (houtside : ∀ p ∈ front ++ back, p.IsOutside)
    (h : parseWith r s = .ok t) :
    parseWith r (String.ofList (write front ++ s.toList ++ write back)) = .ok t := by
  obtain ⟨ps, hps, hwrite⟩ := exists_division h
  obtain ⟨hfront, hback⟩ := List.forall_mem_append.1 hwhole
  obtain ⟨hfrontOutside, hbackOutside⟩ := List.forall_mem_append.1 houtside
  rw [← String.ofList_toList (s := s), ← hwrite, parseWith_write hps] at h
  obtain ⟨⟨opened, builder⟩, hrun, hfinish⟩ := h
  obtain rfl := Builder.finish_eq_ok.1 hfinish
  have hpieces : ∀ p ∈ front ++ ps ++ back, p.IsWhole :=
    List.forall_mem_append.2 ⟨List.forall_mem_append.2 ⟨hfront, hps⟩, hback⟩
  have hwritten : write front ++ s.toList ++ write back = write (front ++ ps ++ back) := by
    simp [write, ← hwrite]
  have hstart : front.foldlM (Progress.advance r) .start = some .start :=
    Progress.foldlM_of_isOutside hfrontOutside [] none
  rw [hwritten, parseWith_write hpieces]
  refine ⟨⟨opened, ⟨[], some t⟩⟩, ?_, rfl⟩
  rw [List.foldlM_append, List.foldlM_append, hstart]
  exact (congrArg (· >>= _) hrun).trans (Progress.foldlM_of_isOutside hbackOutside opened (some t))

/-- A document that is read has one element outside all others. What is read of a document in which
all tags are closed is decided by the elements outside all others: without one it is empty, a second
one is an error, and a single one makes the tree. Nothing else there has a say, so that around a
document that is read there may be anything but tags and faults. -/
theorem parseWith_around_root (r : Registry) (s : String) :
    (∀ t, parseWith r s = .ok t → (scan s).fault? = none ∧ ∃ before root after,
      forest? (scan s).tokens = some (before ++ root :: after) ∧ root.isElement = true ∧
        (∀ i ∈ before ++ after, i.isElement = false) ∧ root.build r = .ok t) ∧
    (∀ row, (scan s).fault? = none → forest? (scan s).tokens = some row →
      parseWith r s = Item.buildRoot r (Item.elements row)) ∧
    ∀ t front back, parseWith r s = .ok t → (∀ p ∈ front ++ back, Piece.IsWhole p) →
      (∀ p ∈ front ++ back, Piece.IsOutside p) →
      parseWith r (String.ofList (write front ++ s.toList ++ write back)) = .ok t := by
  refine ⟨fun t h => ?_, fun row => parseWith_eq_buildRoot, fun t front back h hwhole houtside =>
    parseWith_write_around hwhole houtside h⟩
  obtain ⟨hfault, row, root, hrow, hroot, hbuild⟩ := parseWith_eq_ok.1 h
  obtain ⟨before, after, rfl, helement, hother⟩ := Item.elements_eq_singleton_iff.1 hroot
  exact ⟨hfault, before, root, after, hrow, helement, hother, hbuild⟩

/-- Text and a comment before the root, and a section of unescaped text behind it. -/
theorem parseWith_around_root_of_text :
    (∃ before root after, forest? (scan "<a/>").tokens = some (before ++ root :: after) ∧
      (∀ i ∈ before ++ after, i.isElement = false) ∧
        root.build .builtins = .ok (.element none "a" .empty [])) ∧
      parseWith .builtins "x<!--c--><a/><![CDATA[y]]>" = .ok (.element none "a" .empty []) := by
  have hscan : scan "<a/>" = ⟨[.empty "a" []], none⟩ := by decide +kernel
  have hparse : parseWith .builtins "<a/>" = .ok (.element none "a" .empty []) :=
    parse_of_scan (.empty "a" []) hscan rfl rfl rfl
  have htext : (Piece.text ['x']).IsWhole :=
    ⟨by decide, (Decodes.char (by decide) .nil).not_endsInReference⟩
  have hcomment : (Piece.comment ['c']).IsWhole := by
    unfold Piece.IsWhole EndsAt
    decide
  have hcdata : (Piece.cdata ['y']).IsWhole := by
    unfold Piece.IsWhole EndsAt
    decide
  have hdecoded : (decoded? ['x']).isSome = true := by decide +kernel
  obtain ⟨hone, -, haround⟩ := parseWith_around_root .builtins "<a/>"
  obtain ⟨-, before, root, after, hrow, -, hother, hbuild⟩ := hone _ hparse
  refine ⟨⟨before, root, after, hrow, hother, hbuild⟩, ?_⟩
  exact haround _ [.text ['x'], .comment ['c']] [.cdata ['y']] hparse
    (by simp [htext, hcomment, hcdata]) (by simp [Piece.IsOutside, hdecoded])

/-- Documents with text that is not blank before the root or behind it are read. -/
theorem parse_passes_over_text :
    (Node.parse "x<a/>" = .ok (.element none "a" .empty []) ∧
      ∃ row, forest? (scan "x<a/>").tokens = some row ∧
        isBlank (Item.characterData row) = false) ∧
    Node.parse "<a/><![CDATA[y]]>" = .ok (.element none "a" .empty []) ∧
      ∃ row, forest? (scan "<a/><![CDATA[y]]>").tokens = some row ∧
        isBlank (Item.characterData row) = false := by
  have hbefore : scan "x<a/>" = ⟨[.text "x", .empty "a" []], none⟩ := by decide +kernel
  have hbehind : scan "<a/><![CDATA[y]]>" = ⟨[.empty "a" [], .cdata "y"], none⟩ := by
    decide +kernel
  have hrow : forest? (scan "x<a/>").tokens = some [.text "x", .empty "a" []] := by
    rw [hbefore]
    rfl
  have hrow' : forest? (scan "<a/><![CDATA[y]]>").tokens = some [.empty "a" [], .text "y"] := by
    rw [hbehind]
    rfl
  exact ⟨⟨parseWith_of_forest (by rw [hbefore]) hrow rfl, _, hrow, by decide⟩,
    parseWith_of_forest (by rw [hbehind]) hrow' rfl, _, hrow', by decide⟩

end Node

end CitationLocale
