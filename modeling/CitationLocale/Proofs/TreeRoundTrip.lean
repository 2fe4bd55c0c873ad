import CitationLocale.Proofs.RestoredTree

/-!
# Reading back what was written

A tree that a registry could have made (`Node.IsCanonical`) is read back from its markup as it is
(`Node.parseWith_toXml_self`), whatever its texts and values hold. Raw text is written without
tags, so it must not carry attributes.
-/

namespace CitationLocale

open Markup Text

variable {r : Registry}

/-! ## Canonical trees -/

/-- What the form of a single node has to be for its tree to be read back: it is in normal form, it
is made by the registry, and its names are XML names. -/
structure Node.FitsRegistry (r : Registry) (n : Node) : Prop where
  normal : n.IsNormal
  made : n.isRaw = false → r.Makes n
  name : IsXmlName n.name
  keys : ∀ a ∈ n.attributes.assigned, IsXmlName a.1

/-- A canonical tree is made of nodes that fit the registry, and its root is not raw text. -/
def Node.IsCanonical (r : Registry) (n : Node) : Prop :=
  n.isRaw = false ∧ n.Everywhere (FitsRegistry r)

theorem Node.FitsRegistry.isRead {n : Node} (h : n.FitsRegistry r) : n.IsRead r :=
  h.normal.isRead h.made

theorem Node.IsNormal.isSpelledOut {n : Node} (h : n.IsNormal) (hbare : n.IsBare) :
    n.IsSpelledOut :=
  ⟨hbare, h.record.valued, fun _ => h.record.isSome_get?⟩

/-! ## The round trip -/

/-- A canonical tree whose raw text carries no attributes is read back as it is. -/
theorem Node.parseWith_toXml_self (hr : r.HasDistinctNames) {t : Node} (ht : t.IsCanonical r)
    (hbare : t.Everywhere IsBare) : Node.parseWith r t.toXml = .ok t := by
  have hcomplete : t.Everywhere IsComplete :=
    (ht.2.and hbare).mono fun n hn => hn.1.isRead.isComplete hr (hn.1.normal.isSpelledOut hn.2)
  have hwritable : t.Everywhere IsWritable :=
    ht.2.mono fun n hn => hn.isRead.isWritable hr hn.name hn.keys
  rw [parseWith_toXml_of_isRead ht.1 (ht.2.mono fun n hn => hn.isRead) hwritable,
    restored_eq hcomplete]

/-- Writing a canonical tree and reading it back yields a tree that equals it and is written in the
same way, if no raw text in it carries attributes. -/
theorem Node.parseWith_toXml_of_canonical (r : Registry) (t : Node) (hr : r.HasDistinctNames)
    (ht : t.IsCanonical r) (hbare : t.Everywhere IsBare) :
    ∃ t', Node.parseWith r t.toXml = .ok t' ∧ t'.compare? t = some .eq ∧ t'.toXml = t.toXml := by
  refine ⟨t, parseWith_toXml_self hr ht hbare, ?_, rfl⟩
  exact compare?_self (ht.2.mono fun n hn => hn.normal.record.isSound)

/-- Raw text in a generic element makes a canonical tree, with or without attributes. -/
theorem Node.isCanonical_of_text {name s : String} (pairs textPairs : List (String × String))
    (hname : IsXmlName name) (hlookup : r.lookup? name = none) (hs : isBlank s = false)
    (hkeys : ∀ a ∈ (Attributes.ofPairs pairs).assigned, IsXmlName a.1)
    (htextKeys : ∀ a ∈ (Attributes.ofPairs textPairs).assigned, IsXmlName a.1) :
    IsCanonical r (.element none name (.ofPairs pairs) [.text ⟨none, .ofPairs textPairs, s⟩]) := by
  have hopen (pairs : List (String × String)) : (Attributes.ofPairs pairs).schema? = none :=
    Attributes.schema?_extend .empty pairs
  refine ⟨rfl, .intro ⟨⟨Attributes.isNormal_ofPairs pairs, hopen pairs, fun t ht h => ?_, ?_, ?_⟩,
    fun _ supplied => ?_, hname, hkeys⟩ fun c hc => ?_⟩
  · obtain rfl := Node.text.inj (List.mem_singleton.1 ht)
    exact ⟨rfl, hs⟩
  · exact List.isChain_singleton _
  · intro t h
    simp at h
  · rw [Registry.create_eq]
    simp [Node.name, hlookup, generic, kind, type?]
  · obtain rfl := List.mem_singleton.1 hc
    have hnormal : (Node.text ⟨none, .ofPairs textPairs, s⟩).IsNormal :=
      isNormal_text (Attributes.isNormal_ofPairs textPairs) (hopen textPairs)
    refine .intro ⟨hnormal, fun h => ?_, ?_, htextKeys⟩ fun d hd => ?_
    · simp [isRaw, TextNode.isRaw] at h
    · exact (by decide : IsXmlName "text-node")
    · exact absurd hd List.not_mem_nil

/-- Text and a value made of the characters that markup is made of. -/
theorem Node.parseWith_toXml_of_markup_characters :
    ∃ t', Node.parseWith .builtins
        (Node.element none "a" (.ofPairs [("k", "\"<")]) [.text (.raw "&<>")]).toXml = .ok t' ∧
      t'.compare? (.element none "a" (.ofPairs [("k", "\"<")]) [.text (.raw "&<>")]) = some .eq ∧
      t'.toXml =
        (Node.element none "a" (.ofPairs [("k", "\"<")]) [.text (.raw "&<>")]).toXml := by
  refine parseWith_toXml_of_canonical .builtins _ Registry.hasDistinctNames_builtins
    (isCanonical_of_text _ [] ?_ ?_ ?_ ?_ ?_) (.intro ?_ fun c hc => .intro ?_ ?_)
  · decide
  · decide +kernel
  · decide
  · decide
  · decide
  · intro h
    simp [isRaw] at h
  · obtain rfl := List.mem_singleton.1 hc
    intro _
    rfl
  · obtain rfl := List.mem_singleton.1 hc
    exact fun d hd => absurd hd List.not_mem_nil

/-- Attributes of raw text are lost: the tree that is read back does not equal the one that was
written. -/
theorem Node.parseWith_toXml_loses_text_attributes :
    Registry.builtins.HasDistinctNames ∧
      IsCanonical .builtins
        (.element none "a" .empty [.text ⟨none, .ofPairs [("k", "v")], "x"⟩]) ∧
      ¬ ∃ t', Node.parseWith .builtins
          (Node.element none "a" .empty [.text ⟨none, .ofPairs [("k", "v")], "x"⟩]).toXml = .ok t' ∧
        t'.compare? (.element none "a" .empty [.text ⟨none, .ofPairs [("k", "v")], "x"⟩]) =
          some .eq := by
  have hcanonical (textPairs : List (String × String))
      (htextKeys : ∀ a ∈ (Attributes.ofPairs textPairs).assigned, IsXmlName a.1) :
      IsCanonical .builtins (.element none "a" .empty [.text ⟨none, .ofPairs textPairs, "x"⟩]) :=
    isCanonical_of_text [] textPairs (by decide) (by decide +kernel) (by decide) (by decide)
      htextKeys
  refine ⟨Registry.hasDistinctNames_builtins, hcanonical _ (by decide), ?_⟩
  -- the markup is that of the same tree without the attribute
  have hxml : (Node.element none "a" .empty [.text ⟨none, .ofPairs [("k", "v")], "x"⟩]).toXml =
      (Node.element none "a" .empty [.text (.raw "x")]).toXml := rfl
  have hparse : Node.parseWith .builtins (Node.element none "a" .empty [.text (.raw "x")]).toXml =
      .ok (.element none "a" .empty [.text (.raw "x")]) := by
    apply parseWith_toXml_self Registry.hasDistinctNames_builtins (hcanonical [] (by decide))
    refine .intro (fun h => by simp [isRaw] at h) fun c hc => ?_
    obtain rfl := List.mem_singleton.1 hc
    exact .intro (fun _ => rfl) fun d hd => absurd hd List.not_mem_nil
  rintro ⟨t', ht', hcompare⟩
  rw [hxml, hparse] at ht'
  obtain rfl := Except.ok.inj ht'
  exact absurd hcompare (by decide)

end CitationLocale
