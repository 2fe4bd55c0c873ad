import CitationLocale.Proofs.AttributeEdits
import CitationLocale.Proofs.BuiltTree
import CitationLocale.Proofs.ContentModel
import CitationLocale.Proofs.Indentation

/-!
# The markup of trees with XML names

If all names in a tree are XML names, its markup is read as the fragments that it was written as,
whatever the texts and values hold (`Node.scan_toXml`). Indentation makes no difference to what is
read, for any tree and any registry (`Node.parseWith_pretty_or_error`): only an attribute that is
written twice in one tag keeps the markup from being read, and it does so in both layouts.
-/

namespace CitationLocale.Node

open Markup

variable {n : Node}

theorem isNamed_fragments (h : n.Everywhere HasXmlNames) :
    ∀ f ∈ n.outline.fragments, f.IsNamed := by
  refine h.fragments (fun s => trivial) fun m hm => ?_
  have hkeys : ∀ a ∈ m.attributes.assignments, IsXmlName a.1 := fun a ha =>
    hm.keys a.1 (m.attributes.assignments_keys_sublist.subset (List.mem_map_of_mem ha))
  exact ⟨⟨hm.name, hkeys⟩, ⟨hm.name, hkeys⟩, fun _ => hm.name⟩

/-! ## Texts and values stay in their place -/

/-- Whether the schema of a node, if it has one, names no attribute twice. -/
def HasDistinctSchema (n : Node) : Prop :=
  ∀ schema ∈ n.attributes.schema?, (schema.map AttributeSpec.name).Nodup

instance : DecidablePred HasDistinctSchema := fun n =>
  inferInstanceAs (Decidable (∀ schema ∈ n.attributes.schema?, _))

/-- The tags of a tree that the operations build can be read again. -/
theorem Built.everywhere_isWritable (h : n.Built) (hnames : n.Everywhere HasXmlNames)
    (hschemas : n.Everywhere HasDistinctSchema) : n.Everywhere IsWritable := by
  refine ((h.everywhere.and hnames).and hschemas).mono fun m hm => ?_
  obtain ⟨⟨hrecord, hxml⟩, hschema⟩ := hm
  exact ⟨hxml.name, fun a ha => hxml.assigned a (List.mem_filter.1 ha).1,
    hrecord.isSound.nodup_assignments hschema⟩

/-- The markup of a tree is read to its end, as the tags and texts that were written. -/
theorem scan_toXml (n : Node) (hbuilt : n.Built) (hnames : n.Everywhere HasXmlNames)
    (hschemas : n.Everywhere HasDistinctSchema) :
    scan n.toXml = ⟨(joinTexts n.outline.fragments).map Fragment.token, none⟩ :=
  scan_written (openAfter_of_row n.outline.rowTokens_item) n.outline.head_markup
    (isWritable_fragments (hbuilt.everywhere_isWritable hnames hschemas))

/-- Texts and values that look like markup. -/
theorem scan_toXml_of_markup_characters :
    scan (Node.element none "a" (.ofPairs [("k", "'\"><b/>")])
        [.text (.raw "</a>"), .text (.raw "<![CDATA[&"),
          .term ⟨createAttributes (some (.builtin .term)) (.ofPairs [("name", "<")]),
            .forms none (some (.ofText .multiple "]]>"))⟩]).toXml =
      ⟨[.start "a" [("k", "'\"><b/>")], .text "</a><![CDATA[&", .start "term" [("name", "<")],
        .start "multiple" [], .text "]]>", .close "multiple", .close "term", .close "a"],
        none⟩ := by
  have hterm : Attributes.Built
      (createAttributes (some (.builtin .term)) (.ofPairs [("name", "<")])) :=
    built_createAttributes (.extend _ .empty) _
  have hnames : (Node.element none "a" (.ofPairs [("k", "'\"><b/>")])
      [.text (.raw "</a>"), .text (.raw "<![CDATA[&"),
        .term ⟨createAttributes (some (.builtin .term)) (.ofPairs [("name", "<")]),
          .forms none (some (.ofText .multiple "]]>"))⟩]).Everywhere fun m =>
        m.HasXmlNames ∧ m.HasDistinctSchema := by
    refine .intro ⟨⟨by decide, by decide⟩, by decide⟩ ?_
    simp only [children, List.forall_mem_cons]
    refine ⟨?_, ?_, ?_, fun c hc => absurd hc List.not_mem_nil⟩
    · exact .intro ⟨⟨by decide, by decide⟩, by decide⟩ fun c hc => absurd hc List.not_mem_nil
    · exact .intro ⟨⟨by decide, by decide⟩, by decide⟩ fun c hc => absurd hc List.not_mem_nil
    · refine .intro ⟨⟨by decide, by decide⟩, by decide⟩ fun c hc => ?_
      obtain rfl := List.mem_singleton.1 hc
      exact .intro ⟨⟨by decide, by decide⟩, by decide⟩ fun d hd => absurd hd List.not_mem_nil
  rw [scan_toXml _ ?_ (hnames.mono fun m hm => hm.1) (hnames.mono fun m hm => hm.2)]
  · decide
  · refine .exchange (.generic "a" (.extend _ .empty)) ?_
    simp only [List.forall_mem_cons]
    refine ⟨.raw _, .raw _, .term hterm fun f hf => ?_, fun c hc => absurd hc List.not_mem_nil⟩
    obtain rfl := List.mem_singleton.1 hf
    exact built_createAttributes .empty (some (.builtin .multiple))

/-! ## Indentation -/

/-- A tree is read from its indented markup just as from its plain markup, or from neither. -/
theorem parseWith_pretty_or_fault (r : Registry) (h : n.Everywhere HasXmlNames) :
    Node.parseWith r n.pretty = Node.parseWith r n.toXml ∨
      (∃ e, Node.parseWith r n.pretty = .error e) ∧ ∃ e, Node.parseWith r n.toXml = .error e := by
  by_cases hwritable : ∀ f ∈ n.outline.fragments, f.IsWritable
  · exact .inl (parseWith_pretty_of_fragments hwritable)
  · have hnamed := isNamed_fragments h
    have hplain := exists_fault_of_not_writable (openAfter_of_row n.outline.rowTokens_item)
      n.outline.head_markup hnamed hwritable
    have hindented := exists_fault_of_not_writable
      (openAfter_of_row (n.outline.rowTokens_indentedItem 0)) (n.outline.head_indented 0)
      ((Outline.forall_indented (fun _ => trivial) n.outline 0).2 hnamed)
      (mt (Outline.forall_indented (fun _ => trivial) n.outline 0).1 hwritable)
    rw [← Outline.pretty_eq] at hindented
    exact .inr ⟨exists_error_of_fault hindented, exists_error_of_fault hplain⟩

/-- Indented and plain markup of a tree are read into equal trees, or both are not read. -/
theorem parseWith_pretty_or_error (r : Registry) (n : Node) (hnames : n.Everywhere HasXmlNames) :
    (∃ t t', Node.parseWith r n.pretty = .ok t ∧ Node.parseWith r n.toXml = .ok t' ∧
        t.compare? t' = some .eq ∧ t.toXml = t'.toXml) ∨
      ∃ e e', Node.parseWith r n.pretty = .error e ∧ Node.parseWith r n.toXml = .error e' := by
  rcases parseWith_pretty_or_fault r hnames with hsame | ⟨⟨e, he⟩, e', he'⟩
  · cases hplain : Node.parseWith r n.toXml with
    | error e => exact .inr ⟨e, e, hsame.trans hplain, rfl⟩
    | ok t =>
      have hself : t.compare? t = some .eq :=
        compare?_self ((everywhere_parseWith hplain).mono fun m hm => hm.isSound)
      exact .inl ⟨t, t, hsame.trans hplain, rfl, hself, rfl⟩
  · exact .inr ⟨e, e', he, he'⟩

/-- Elements that only have the names of a term and a form are read as such in both layouts. -/
theorem parseWith_pretty_of_term_names :
    ∃ t t', Node.parseWith .builtins "<term>\n  <single> x </single>\n</term>" = .ok t ∧
      Node.parseWith .builtins "<term><single> x </single></term>" = .ok t' ∧
      t.compare? t' = some .eq ∧ t.toXml = t'.toXml := by
  have hnames : (Node.element none "term" .empty
      [.element none "single" .empty [.text (.raw " x ")]]).Everywhere HasXmlNames := by
    refine .intro ⟨by decide, by decide⟩ fun c hc => ?_
    obtain rfl := List.mem_singleton.1 hc
    refine .intro ⟨by decide, by decide⟩ fun c hc => ?_
    obtain rfl := List.mem_singleton.1 hc
    exact .intro ⟨by decide, by decide⟩ fun c hc => absurd hc List.not_mem_nil
  have hpretty : (Node.element none "term" .empty
      [.element none "single" .empty [.text (.raw " x ")]]).pretty =
        "<term>\n  <single> x </single>\n</term>" := by
    decide +kernel
  have hplain : (Node.element none "term" .empty
      [.element none "single" .empty [.text (.raw " x ")]]).toXml =
        "<term><single> x </single></term>" := by
    decide +kernel
  have hscan : scan "<term><single> x </single></term>" =
      ⟨[.start "term" [], .start "single" [], .text " x ", .close "single", .close "term"],
        none⟩ := by
    decide +kernel
  have hbuild : (Item.element "term" [] [.element "single" [] [.text " x "]]).build .builtins =
      .ok (.term ((Term.create .empty).setSingle " x ")) := by
    simp only [Item.build, Item.fill, Item.addTo, Registry.create_term, Registry.create_single]
    rfl
  have hparse : Node.parse "<term><single> x </single></term>" =
      .ok (.term ((Term.create .empty).setSingle " x ")) :=
    parse_of_scan _ hscan rfl rfl hbuild
  have hread := parseWith_pretty_or_error .builtins _ hnames
  rw [hpretty, hplain] at hread
  rcases hread with hread | ⟨e, e', -, he'⟩
  · exact hread
  · rw [← Node.parse, hparse] at he'
    cases he'

end CitationLocale.Node
