import CitationLocale.Proofs.ReadNames
import CitationLocale.Proofs.TreeRoundTrip

/-!
# Reading again what was read

Texts and values are escaped when they are written, names are written as they are. A tag can
therefore look like another one (`Markup.Fragment.IsMisleading`): `<a/ >` is the start of an element
`a/` and is written `<a/>`, and `< />` is an element without a name and is written `</>`. Such a
tag opens fewer elements than it was written for, so that a close tag is left over in the end
(`length_opened_of_foldlM`). If no tag leaves a quote open, a tree that was read is read again
exactly if no tag is misleading, and then as it is (`Node.parse_toXml_iff`).
-/

namespace CitationLocale

open Markup

variable {r : Registry}

/-! ## Fragments of trees that were read -/

namespace Markup.Fragment

/-- Whether every quote that the names in a tag open is closed in the tag. -/
def ClosesQuotes : Fragment → Prop
  | .start name attributes => StaysInTag (tagBody name attributes)
  | .empty name attributes => StaysInTag (tagBody name attributes)
  | _ => True

/-- Whether the names in a fragment are such as documents give. -/
def HasReadNames : Fragment → Prop
  | .start name attributes => IsReadName name ∧ Markup.IsReadable name attributes
  | .empty name attributes => IsReadName name ∧ Markup.IsReadable name attributes
  | .close name => IsReadName name ∧ StaysInTag name.toList
  | .text _ => True

theorem HasReadNames.isReadable {f : Fragment} (h : f.HasReadNames) : f.IsReadable := by
  cases f with
  | start | empty => exact h.2
  | close => exact h.1.chars
  | text => trivial

theorem source_piece (f : Fragment) : f.piece.source = f.chars := by
  cases f with
  | start | close | text => simp [piece, Piece.source, chars, tagBody]
  | empty name attributes =>
    rw [piece]
    split_ifs with h
    · obtain ⟨rfl, rfl⟩ := h
      rfl
    · simp [Piece.source, chars, tagBody]

theorem write_pieces (fs : List Fragment) :
    Markup.write (fs.map piece) = fs.flatMap Fragment.chars := by
  simp only [Markup.write, List.flatMap_map, source_piece]

theorem isWhole_piece {f : Fragment} (hnames : f.HasReadNames) (hquotes : f.ClosesQuotes) :
    f.piece.IsWhole := by
  cases f with
  | start name attributes => exact ⟨head_tagBody attributes hnames.1.head, hquotes⟩
  | empty name attributes =>
    rw [piece]
    split_ifs with h
    · exact staysInTag_of_plain (by simp)
    · have hne : tagBody name attributes ≠ [] := tagBody_ne_nil (not_and_or.1 h)
      refine ⟨?_, StaysInTag.append hquotes (staysInTag_of_plain (by simp))⟩
      rw [List.head?_append_of_ne_nil _ hne]
      exact head_tagBody attributes hnames.1.head
  | close name => exact hnames.2
  | text content =>
    exact ⟨not_mem_escape (by decide) _,
      (unescape_eq_ok.1 (unescape_escape content.toList)).not_endsInReference⟩

/-! ## Tags that do not mislead -/

/-- Fragments that do not mislead are read as their tokens, one after the other. -/
theorem foldlM_pieces {fs : List Fragment} (hnames : ∀ f ∈ fs, f.HasReadNames)
    (hplain : ∀ f ∈ fs, ¬ f.IsMisleading) {names names' : List String}
    (hopen : openAfter names (fs.map token) = some names') (b : Builder) :
    (fs.map piece).foldlM (Progress.advance r) ⟨names.map String.toList, b⟩ =
      ((fs.map token).foldlM (Builder.step r) b).toOption.map
        (Progress.mk (names'.map String.toList)) := by
  induction fs generalizing names b with
  | nil =>
    obtain rfl := Option.some.inj hopen
    rfl
  | cons f fs ih =>
    rw [List.forall_mem_cons] at hnames hplain
    rw [List.map_cons, openAfter_cons, Option.bind_eq_some_iff] at hopen
    obtain ⟨next, hnext, hopen⟩ := hopen
    rw [List.map_cons, List.map_cons, List.foldlM_cons, List.foldlM_cons, Progress.advance,
      stepPiece_piece hnames.1.isReadable hplain.1 hnext]
    simp only [Except.toOption, Option.bind_eq_bind, Option.bind_some]
    cases b.step r f.token with
    | error e => rfl
    | ok b => exact ih hnames.2 hplain.2 hopen b

end Markup.Fragment

/-! ## Tags that mislead -/

namespace Markup

/-- By how many a token raises the number of open elements. -/
def Token.rise : Token → Int
  | .start _ _ => 1
  | .close _ => -1
  | _ => 0

/-- By how many some tokens raise the number of open elements. -/
def totalRise : List Token → Int
  | [] => 0
  | t :: ts => t.rise + totalRise ts

theorem length_openStep {names names' : List String} {t : Token}
    (h : openStep names t = some names') : (names'.length : Int) = names.length + t.rise := by
  cases t with
  | start name attributes =>
    obtain rfl := Option.some.inj h
    simp [Token.rise]
  | close name =>
    cases names with
    | nil => simp [openStep] at h
    | cons expected outer =>
      simp only [openStep] at h
      split_ifs at h
      obtain rfl := Option.some.inj h
      simp only [Token.rise, List.length_cons]
      omega
  | empty | text | cdata | aside =>
    obtain rfl := Option.some.inj h
    simp [Token.rise]

theorem length_openAfter {names names' : List String} {ts : List Token}
    (h : openAfter names ts = some names') :
    (names'.length : Int) = names.length + totalRise ts := by
  induction ts generalizing names with
  | nil =>
    obtain rfl := Option.some.inj h
    exact (Int.add_zero _).symm
  | cons t ts ih =>
    rw [openAfter_cons, Option.bind_eq_some_iff] at h
    obtain ⟨next, hnext, h⟩ := h
    rw [totalRise, ih h, length_openStep hnext, Int.add_assoc]

theorem length_opened_of_stepOpenTag {opened : List (List Char)} {stop : Nat} {body : List Char}
    {step : Step} (h : stepOpenTag opened stop body = .ok step) :
    step.opened.length = opened.length + if body.getLast? = some '/' then 0 else 1 := by
  simp only [stepOpenTag] at h
  split at h
  · simp at h
  · simp at h
  · by_cases hlast : body.getLast? = some '/'
    · rw [if_pos (by simp [hlast])] at h
      obtain rfl := Except.ok.inj h
      simp [hlast]
    · rw [if_neg (by simp [hlast])] at h
      obtain rfl := Except.ok.inj h
      simp [hlast]

theorem length_opened_of_stepCloseTag {opened : List (List Char)} {start : Nat} {body : List Char}
    {step : Step} (h : stepCloseTag opened start body = .ok step) :
    opened.length = step.opened.length + 1 := by
  simp only [stepCloseTag] at h
  cases opened with
  | nil => simp at h
  | cons expected outer =>
    dsimp only at h
    split_ifs at h
    obtain rfl := Except.ok.inj h
    rfl

/-- Reading a fragment opens no more elements than it was written for, and fewer if it misleads. -/
theorem Fragment.length_opened_of_stepPiece {f : Fragment} {opened : List (List Char)}
    {start stop : Nat} {step : Step} (h : stepPiece opened start stop f.piece = .ok step) :
    (step.opened.length : Int) ≤ opened.length + f.token.rise ∧
      (f.IsMisleading → (step.opened.length : Int) < opened.length + f.token.rise) := by
  cases f with
  | start name attributes =>
    have hlength := length_opened_of_stepOpenTag h
    simp only [token, Token.rise]
    refine ⟨by split_ifs at hlength <;> omega, ?_⟩
    rintro ⟨rfl, hlast⟩
    rw [tagBody, List.flatMap_nil, List.append_nil, if_pos hlast] at hlength
    omega
  | empty name attributes =>
    simp only [token, Token.rise]
    rw [piece] at h
    split_ifs at h with hnone
    · have hlength := length_opened_of_stepCloseTag h
      exact ⟨by omega, fun _ => by omega⟩
    · have hlength := length_opened_of_stepOpenTag h
      rw [if_pos (by simp)] at hlength
      exact ⟨by omega, fun h => absurd h hnone⟩
  | close name =>
    have hlength := length_opened_of_stepCloseTag h
    simp only [token, Token.rise]
    exact ⟨by omega, False.elim⟩
  | text content =>
    simp only [piece, stepPiece, unescape_escape] at h
    obtain rfl := Except.ok.inj h
    exact ⟨by simp [token, Token.rise], False.elim⟩

/-- Reading fragments opens no more elements than they were written for, and fewer if one of them
misleads. -/
theorem Fragment.length_opened_of_foldlM {fs : List Fragment} {st st' : Progress}
    (h : (fs.map piece).foldlM (Progress.advance r) st = some st') :
    (st'.opened.length : Int) ≤ st.opened.length + totalRise (fs.map token) ∧
      ((∃ f ∈ fs, f.IsMisleading) →
        (st'.opened.length : Int) < st.opened.length + totalRise (fs.map token)) := by
  induction fs generalizing st with
  | nil =>
    obtain rfl := Option.some.inj h
    simp [totalRise]
  | cons f fs ih =>
    rw [List.map_cons, List.foldlM_cons] at h
    obtain ⟨next, hnext, h⟩ := Option.bind_eq_some_iff.1 h
    obtain ⟨step, hstep, hnext⟩ := Option.bind_eq_some_iff.1 hnext
    obtain ⟨b, -, hnext⟩ := Option.bind_eq_some_iff.1 hnext
    obtain rfl := Option.some.inj hnext
    obtain ⟨hle, hlt⟩ := length_opened_of_stepPiece (Result.toOption_eq_some.1 hstep)
    obtain ⟨hrest, hrest'⟩ := ih h
    dsimp only at hrest hrest'
    simp only [List.map_cons, totalRise]
    refine ⟨by omega, ?_⟩
    rintro ⟨g, hg, hmisleading⟩
    rcases List.mem_cons.1 hg with rfl | hg
    · have := hlt hmisleading
      omega
    · have := hrest' ⟨g, hg, hmisleading⟩
      omega

end Markup

namespace Node

/-! ## Trees that were read -/

section

variable {s : String} {t : Node}

/-- Raw text that was read has no attributes. -/
theorem everywhere_isBare (h : Node.parseWith r s = .ok t) : t.Everywhere IsBare := by
  obtain ⟨-, row, root, -, -, hbuild⟩ := parseWith_eq_ok.1 h
  refine Item.everywhere_build (fun i m hm hraw => ?_) (fun s _ => rfl) hbuild
  rw [Item.isRaw_build r hm] at hraw
  exact absurd hraw Bool.false_ne_true

/-- What is written of a tree that was read makes the same tree again. -/
theorem build_outline (h : Node.parse s = .ok t) :
    t.outline.item.build .builtins = .ok t := by
  obtain ⟨hraw, hread⟩ := everywhere_isRead Registry.hasUsualNames_builtins h
  obtain ⟨-, row, root, -, -, hbuild⟩ := parseWith_eq_ok.1 h
  have hnormal := (Item.everywhere_isNormal_build hbuild).and (everywhere_isBare h)
  have hcomplete : t.Everywhere IsComplete := (hread.and hnormal).mono fun n hn =>
    hn.1.isComplete Registry.hasDistinctNames_builtins (hn.2.1.1.isSpelledOut hn.2.2)
  rw [build_restored (hread.mono fun n hn => hn.toIsShaped) hraw, restored_eq hcomplete]

theorem hasReadNames_fragments (h : Node.parse s = .ok t) :
    ∀ f ∈ t.outline.fragments, f.HasReadNames := by
  have hread := (everywhere_isRead Registry.hasUsualNames_builtins h).2
  refine (hread.and (everywhere_hasReadNames h)).fragments (fun _ => trivial) fun n hn => ?_
  obtain ⟨hread, hnames⟩ := hn
  have htag : Markup.IsReadable n.name n.attributes.assignments :=
    ⟨hnames.name.chars, fun a ha => hnames.keys a (List.mem_filter.1 ha).1,
      hread.nodup_assignments Registry.hasDistinctNames_builtins⟩
  exact ⟨⟨hnames.name, htag⟩, ⟨hnames.name, htag⟩, fun hcontent =>
    ⟨hnames.name, hnames.content hcontent⟩⟩

end

/-! ## Reading them again -/

theorem toXml_eq_write (n : Node) :
    n.toXml = String.ofList (write (n.outline.fragments.map Fragment.piece)) := by
  rw [Fragment.write_pieces]
  rfl

theorem openAfter_fragments (n : Node) :
    openAfter [] (n.outline.fragments.map Fragment.token) = some [] := by
  rw [← Outline.rowTokens_item, openAfter_rowTokens]

section

variable {n t : Node} (hnames : ∀ f ∈ n.outline.fragments, f.HasReadNames)
  (hquotes : ∀ f ∈ n.outline.fragments, f.ClosesQuotes)
include hnames hquotes

theorem parseWith_toXml_eq_ok : Node.parseWith r n.toXml = .ok t ↔
    ∃ st, (n.outline.fragments.map Fragment.piece).foldlM (Progress.advance r) .start = some st ∧
      st.builder.finish = .ok t := by
  rw [toXml_eq_write, parseWith_write]
  intro p hp
  obtain ⟨f, hf, rfl⟩ := List.mem_map.1 hp
  exact Fragment.isWhole_piece (hnames f hf) (hquotes f hf)

/-- If no tag misleads, the tokens that are read are the fragments that were written. -/
theorem parseWith_toXml_of_plain (hplain : ∀ f ∈ n.outline.fragments, ¬ f.IsMisleading) :
    Node.parseWith r n.toXml = .ok t ↔ n.outline.item.build r = .ok t := by
  have hroot : Item.elements [n.outline.item] = [n.outline.item] := by
    simp [Item.elements, Outline.isElement_item]
  have hrun : (n.outline.fragments.map Fragment.piece).foldlM (Progress.advance r) .start =
      ((n.outline.fragments.map Fragment.token).foldlM (Builder.step r) .empty).toOption.map
        (Progress.mk []) := Fragment.foldlM_pieces hnames hplain n.openAfter_fragments .empty
  rw [parseWith_toXml_eq_ok hnames hquotes, hrun, ← Item.foldlM_finish hroot,
    Outline.rowTokens_item, Result.bind_eq_ok]
  simp only [Option.map_eq_some_iff, Result.toOption_eq_some, exists_exists_and_eq_and]

/-- If a tag misleads, there is no end tag that could close the root. -/
theorem parseWith_toXml_of_misleading (hmisleading : ∃ f ∈ n.outline.fragments, f.IsMisleading) :
    Node.parseWith r n.toXml ≠ .ok t := by
  intro h
  obtain ⟨st, hrun, -⟩ := (parseWith_toXml_eq_ok hnames hquotes).1 h
  have hlength := (Fragment.length_opened_of_foldlM hrun).2 hmisleading
  have hsum := length_openAfter n.openAfter_fragments
  simp only [Progress.start, List.length_nil] at hlength hsum
  omega

end

/-- A tree that was read, and whose tags close the quotes that they open, is read again exactly if
no tag in its markup misleads, and then it is read as it is. -/
theorem parse_toXml_iff (s : String) (t : Node) (h : Node.parse s = .ok t)
    (hquotes : ∀ f ∈ t.outline.fragments, f.ClosesQuotes) :
    ((∃ t', Node.parse t.toXml = .ok t') ↔ ∀ f ∈ t.outline.fragments, ¬ f.IsMisleading) ∧
      ∀ t', Node.parse t.toXml = .ok t' → t' = t := by
  have hnames := hasReadNames_fragments h
  have hplain (t' : Node) (ht' : Node.parse t.toXml = .ok t') :
      ∀ f ∈ t.outline.fragments, ¬ f.IsMisleading := fun f hf hmisleading =>
    parseWith_toXml_of_misleading hnames hquotes ⟨f, hf, hmisleading⟩ ht'
  refine ⟨⟨fun ⟨t', ht'⟩ => hplain t' ht', fun hplain => ⟨t, ?_⟩⟩, fun t' ht' => ?_⟩
  · exact (parseWith_toXml_of_plain hnames hquotes hplain).2 (build_outline h)
  · have hbuild := (parseWith_toXml_of_plain hnames hquotes (hplain t' ht')).1 ht'
    exact Except.ok.inj (hbuild.symm.trans (build_outline h))

/-- Names with slashes and equals signs, in tags with attributes. -/
theorem parse_toXml_of_unusual_names :
    ∃ t, Node.parse "<1/ =='x'>y</1/>" = .ok t ∧ (∀ f ∈ t.outline.fragments, f.ClosesQuotes) ∧
      Node.parse t.toXml = .ok t := by
  have hscan : scan "<1/ =='x'>y</1/>" =
      ⟨[.start "1/" [("=", "x")], .text "y", .close "1/"], none⟩ := by
    decide +kernel
  have hbuild : (Item.element "1/" [("=", "x")] [.text "y"]).build .builtins =
      .ok (.element none "1/" (.ofPairs [("=", "x")]) [.text (.raw "y")]) := by
    rfl
  have hfragments : (Node.element none "1/" (.ofPairs [("=", "x")])
      [.text (.raw "y")]).outline.fragments =
        [.start "1/" [("=", "x")], .text "y", .close "1/"] := by
    decide
  have hquotes : ∀ f ∈ [Fragment.start "1/" [("=", "x")], .text "y", .close "1/"],
      f.ClosesQuotes := by
    have htag : StaysInTag (tagBody "1/" [("=", "x")]) :=
      staysInTag_tagBody (staysInTag_of_plain (by simp))
        (List.forall_mem_singleton.2 (staysInTag_of_plain (by simp)))
    simp [Fragment.ClosesQuotes, htag]
  rw [← hfragments] at hquotes
  have hparse := parse_of_scan _ hscan rfl rfl hbuild
  obtain ⟨hiff, hself⟩ := parse_toXml_iff _ _ hparse hquotes
  obtain ⟨t', ht'⟩ := hiff.2 (by rw [hfragments]; simp [Fragment.IsMisleading])
  obtain rfl := hself t' ht'
  exact ⟨_, hparse, hquotes, ht'⟩

/-- A tree is not read again if its markup has a fault. -/
theorem exists_parse_and_error {s : String} (tokens : List Token) (root : Item) (t : Node)
    (hscan : scan s = ⟨tokens, none⟩) (hrow : forest? tokens = some [root])
    (hroot : root.isElement = true) (hbuild : root.build .builtins = .ok t)
    (hfault : (scan t.toXml).fault?.isSome) :
    ∃ t, Node.parse s = .ok t ∧ ∃ e, Node.parse t.toXml = .error e :=
  ⟨t, parse_of_scan root hscan hrow hroot hbuild, exists_error_of_fault hfault⟩

/-- An element without a name, a start tag that ends with a slash, and a name with a quote that a
value closed: all three are read, and none of them is read again. -/
theorem parse_toXml_fails :
    (∃ t, Node.parse "< />" = .ok t ∧ ∃ e, Node.parse t.toXml = .error e) ∧
      (∃ t, Node.parse "<a/ >x</a/>" = .ok t ∧ ∃ e, Node.parse t.toXml = .error e) ∧
      ∃ t, Node.parse "<a\" k='v\"' b'='w'/>" = .ok t ∧ ∃ e, Node.parse t.toXml = .error e := by
  refine ⟨exists_parse_and_error [.empty "" []] (.empty "" []) (.element none "" .empty [])
      ?_ rfl rfl rfl ?_,
    exists_parse_and_error [.start "a/" [], .text "x", .close "a/"] (.element "a/" [] [.text "x"])
      (.element none "a/" .empty [.text (.raw "x")]) ?_ rfl rfl rfl ?_,
    exists_parse_and_error [.empty "a\"" [("k", "v\""), ("b'", "w")]]
      (.empty "a\"" [("k", "v\""), ("b'", "w")])
      (.element none "a\"" (.ofPairs [("k", "v\""), ("b'", "w")]) []) ?_ rfl rfl rfl ?_⟩
  all_goals decide +kernel

end Node

end CitationLocale
