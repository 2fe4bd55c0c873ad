import Mathlib.Data.List.Find
import CitationLocale.TermTable.Lookup
import CitationLocale.TermTable.Ordinal
import CitationLocale.Proofs.ContentModel
import CitationLocale.Proofs.Indentation
import CitationLocale.Proofs.RestoredTree

/-!
# Reading back a term table

A term table that is written and read back answers every query as before. The table need not be
the same: a form that was cleared comes back as the default. But terms that resemble each other
(`Term.Resembles`) cannot be told apart by the queries, and a restored term resembles the written
one (`Term.resembles_restored`).
-/

namespace CitationLocale

open Markup Text

/-! ## Terms that resemble each other -/

/-- Two terms have the same content, and their attributes mean the same. -/
structure Term.Resembles (t u : Term) : Prop where
  name : t.name? = u.name?
  form : t.form? = u.form?
  gender : t.gender = u.gender
  genderForm : t.genderForm? = u.genderForm?
  ordinalMatch : t.ordinalMatch? = u.ordinalMatch?
  content : t.content = u.content

namespace Term.Resembles

variable {t u : Term} (h : t.Resembles u)
include h

theorem fits (q : TermQuery) : t.fits q = u.fits q := by
  unfold Term.fits
  rw [h.name, h.form, h.gender]

theorem render (options : RenderOptions) : t.render options = u.render options := by
  unfold Term.render singularize pluralize text? single? multiple? singleForm? multipleForm?
  rw [h.content]

end Term.Resembles

/-! ## Queries on tables that resemble each other -/

namespace TermTable

/-- A table with other terms in the same places. -/
def replace (table : TermTable) (f : Term → Term) : TermTable :=
  { table with terms := table.terms.map f }

section

variable {table : TermTable} {f : Term → Term} (h : ∀ t ∈ table.terms, (f t).Resembles t)
include h

theorem candidates_replace {test : Term → Bool}
    (htest : ∀ t u, t.Resembles u → test t = test u) :
    (table.replace f).candidates test = (table.candidates test).map (Prod.map f id) := by
  unfold candidates replace
  rw [List.zipIdx_map, List.filter_map]
  congr 1
  apply List.filter_congr
  intro c hc
  exact htest _ _ (h c.1 (List.fst_mem_of_mem_zipIdx hc))

theorem mem_candidates {test : Term → Bool} {c : Term × Nat} (hc : c ∈ table.candidates test) :
    (f c.1).Resembles c.1 :=
  h c.1 (List.fst_mem_of_mem_zipIdx (List.mem_filter.1 hc).1)

theorem find?_candidates_replace {test : Term → Bool} (found : Term → Bool)
    (htest : ∀ t u, t.Resembles u → test t = test u)
    (hfound : ∀ t u, t.Resembles u → found t = found u) :
    (((table.replace f).candidates test).find? fun c => found c.1) =
      ((table.candidates test).find? fun c => found c.1).map (Prod.map f id) := by
  rw [candidates_replace h htest, List.find?_map]
  congr 1
  apply List.find?_congr
  intro c hc
  exact hfound _ _ (mem_candidates h hc)

theorem head?_candidates_replace {test : Term → Bool}
    (htest : ∀ t u, t.Resembles u → test t = test u) :
    ((table.replace f).candidates test).head? =
      (table.candidates test).head?.map (Prod.map f id) := by
  rw [candidates_replace h htest, List.head?_map]

/-- Lookups select the same place. -/
theorem lookupIndex?_replace (name : String) (options : LookupOptions) :
    (table.replace f).lookupIndex? name options = table.lookupIndex? name options := by
  have htest (t u : Term) (h : t.Resembles u) :
      (t.name? == some name) = (u.name? == some name) := by
    rw [h.name]
  have hform (form : TermForm) := find?_candidates_replace h
    (fun t => t.fits ⟨none, some form, options.gender?⟩) htest fun t u h => h.fits _
  unfold lookupIndex?
  simp only [head?_candidates_replace h htest, hform]
  cases (table.candidates fun t => t.name? == some name).head? with
  | none => rfl
  | some first =>
    let inForm (form : TermForm) := (table.candidates fun t => t.name? == some name).find? fun c =>
      c.1.fits ⟨none, some form, options.gender?⟩
    have hbest := List.map_findSome? (f := inForm) (g := Prod.map f id)
      (l := (options.form?.getD .long).fallbacks)
    change some (((List.findSome? (Option.map (Prod.map f id) ∘ inForm) _).getD
      (Prod.map f id first)).2) = some (((List.findSome? inForm _).getD first).2)
    rw [← hbest, Option.getD_map]
    rfl

/-- The text of the term that is found is the same. -/
theorem render?_replace (name : String) (options : LookupOptions) :
    (table.replace f).render? name options = table.render? name options := by
  unfold render? lookup?
  rw [lookupIndex?_replace h]
  cases table.lookupIndex? name options with
  | none => rfl
  | some i =>
    simp only [Option.bind_eq_bind, Option.bind_some, replace, List.getElem?_map, Option.map_map]
    cases hi : table.terms[i]? with
    | none => rfl
    | some t => exact congrArg some ((h t (List.mem_of_getElem? hi)).render _)

theorem ordinalNamed?_replace (name : String) (gender? : Option Gender)
    (accepts : Option OrdinalMatch → Bool) :
    (table.replace f).ordinalNamed? name gender? accepts =
      table.ordinalNamed? name gender? accepts := by
  have htest (t u : Term) (h : t.Resembles u) :
      (t.name? == some name && accepts t.ordinalMatch?) =
        (u.name? == some name && accepts u.ordinalMatch?) := by
    rw [h.name, h.ordinalMatch]
  have hgender (g? : Option Gender) := find?_candidates_replace h
    (fun t => t.genderForm? == g?) htest fun t u h => by rw [h.genderForm]
  unfold ordinalNamed?
  simp only [hgender, head?_candidates_replace h htest, ← Option.map_or, Option.map_map]
  rfl

/-- Endings of ordinal numbers are found at the same place. -/
theorem ordinalIndex?_replace (number : Int) (gender? : Option Gender) :
    (table.replace f).ordinalIndex? number gender? = table.ordinalIndex? number gender? := by
  simp only [ordinalIndex?, ordinalNamed?_replace h]

theorem longOrdinalIndex?_replace (number : Int) :
    (table.replace f).longOrdinalIndex? number = table.longOrdinalIndex? number := by
  simp only [longOrdinalIndex?, ordinalNamed?_replace h, ordinalIndex?_replace h]

end

end TermTable

/-! ## Terms as they are built -/

/-- The terms that the operations on terms make. -/
inductive Term.Built : Term → Prop
  | create (supplied : Attributes) : Built (.create supplied)
  | named (name : String) : Built (.named name)
  | setText {t : Term} (s : String) : Built t → Built (t.setText s)
  | setSingle {t : Term} (s : String) : Built t → Built (t.setSingle s)
  | setMultiple {t : Term} (s : String) : Built t → Built (t.setMultiple s)
  | setForm {t : Term} (form : TermForm) : Built t → Built (t.setForm form)
  | setGender {t : Term} (gender : Gender) : Built t → Built (t.setGender gender)
  | set {t : Term} (key value : String) : Built t → Built (t.set key value)
  | clear {t : Term} (key : String) : Built t → Built (t.clear key)

/-- Whether a record is one of the attributes of a term. -/
def Attributes.IsOfTerm (r : Attributes) : Prop :=
  r.schema? = some (NodeType.builtin .term).schema ∧ r.IsSound

/-- The records in a term as they are made with it: its own has the attributes of a term, and those
of its forms have none. -/
structure Term.HasUsualRecords (t : Term) : Prop where
  record : t.attributes.IsOfTerm
  forms : ∀ f ∈ t.formNodes, f.attributes = .blank []

/-- All operations keep the record of a term one with the attributes of a term. -/
theorem Term.Built.isOfTerm {t : Term} (h : t.Built) : t.attributes.IsOfTerm := by
  have hcreate (supplied : Attributes) : (Term.create supplied).attributes.IsOfTerm :=
    ⟨Attributes.schema?_extend _ _, (Attributes.isSound_defaults _).extend _⟩
  have hset {t : Term} (ht : t.attributes.IsOfTerm) (key value : String) :
      (t.set key value).attributes.IsOfTerm :=
    ⟨(Attributes.schema?_set _ _ _).trans ht.1, ht.2.set key value⟩
  induction h with
  | create supplied => exact hcreate supplied
  | named name => exact hcreate _
  | setText _ _ ih | setSingle _ _ ih | setMultiple _ _ ih => exact ih
  | setForm form _ ih => exact hset ih _ _
  | setGender gender _ ih =>
    unfold Term.setGender
    split_ifs
    · exact ⟨ih.1, ih.2.clear _⟩
    · exact hset ih _ _
  | set key value _ ih => exact hset ih key value
  | clear key _ ih => exact ⟨ih.1, ih.2.clear key⟩

/-- All operations make forms without attributes. -/
theorem Term.Built.attributes_of_mem_formNodes {t : Term} (h : t.Built) :
    ∀ f ∈ t.formNodes, f.attributes = .blank [] := by
  induction h with
  | create | named | setText => exact fun f hf => absurd hf List.not_mem_nil
  | setForm | set | clear => assumption
  | setGender gender _ ih =>
    unfold Term.setGender
    split_ifs
    · exact ih
    · exact ih
  | setSingle s _ ih =>
    intro f hf
    rcases mem_formNodes_putSingle hf with hf | rfl
    · exact ih f hf
    · exact createAttributes_of_nil (t := .builtin .single) rfl .empty
  | setMultiple s _ ih =>
    intro f hf
    rcases mem_formNodes_putMultiple hf with hf | rfl
    · exact ih f hf
    · exact createAttributes_of_nil (t := .builtin .multiple) rfl .empty

theorem Term.Built.hasUsualRecords {t : Term} (h : t.Built) : t.HasUsualRecords :=
  ⟨h.isOfTerm, h.attributes_of_mem_formNodes⟩

theorem TextNode.IsForm.restored_eq {f : TextNode} (hf : f.IsForm)
    (h : f.attributes = .blank []) : f.restored = f := by
  obtain ⟨type?, attributes, s⟩ := f
  obtain rfl : attributes = .blank [] := h
  obtain rfl | rfl : type? = some (.builtin .single) ∨ type? = some (.builtin .multiple) := hf
  · rfl
  · rfl

/-- A restored term has the attributes of the written one, and where its form was cleared it is in
the long form, which is what a missing form means. -/
theorem Term.HasUsualRecords.resembles_restored {t : Term} (ht : t.HasUsualRecords) :
    t.restored.Resembles t := by
  have h := ht.record
  have hnames : ((NodeType.builtin .term).schema.map AttributeSpec.name).Nodup := by decide
  have hget (k : String) : t.restored.attributes.get? k =
      (t.attributes.get? k).or ((Attributes.defaults (NodeType.builtin .term).schema).get? k) := by
    rw [← Attributes.default?_of_fixed h.1]
    exact Attributes.get?_restore h.2 h.1 hnames k
  have hsame {k : String}
      (hk : (Attributes.defaults (NodeType.builtin .term).schema).get? k = none) :
      t.restored.attributes.get? k = t.attributes.get? k := by
    rw [hget, hk, Option.or_none]
  refine ⟨hsame (by decide), ?_, ?_, ?_, ?_, Term.restored_content fun f hf =>
    (isForm_of_mem_formNodes hf).restored_eq (ht.forms f hf)⟩
  · have hlong : (Attributes.defaults (NodeType.builtin .term).schema).get? "form" =
        some "long" := by decide
    unfold form?
    rw [hget, hlong]
    cases t.attributes.get? "form" <;> rfl
  · unfold gender
    rw [hsame (by decide)]
  · unfold genderForm?
    rw [hsame (by decide)]
  · unfold ordinalMatch?
    rw [hsame (by decide)]

/-! ## The round trip -/

theorem Registry.makes_term (t : Term) : builtins.Makes (.term t) := by
  intro supplied
  rw [show (Node.term t).name = "term" from rfl, create_term]
  exact ⟨rfl, rfl⟩

theorem Registry.makes_terms (table : TermTable) : builtins.Makes (.terms table) := by
  intro supplied
  rw [show (Node.terms table).name = "terms" from rfl, create_terms]
  exact ⟨rfl, rfl⟩

theorem Registry.makes_form {t : Term} : ∀ f ∈ t.formNodes, builtins.Makes (.text f) := by
  intro f hf supplied
  obtain ⟨form, rfl | rfl⟩ := Term.mem_formNodes hf
  · have hname : (Node.text (form.node .single)).name = "single" := name_single
    rw [hname, create_single]
    exact ⟨rfl, rfl⟩
  · have hname : (Node.text (form.node .multiple)).name = "multiple" := name_multiple
    rw [hname, create_multiple]
    exact ⟨rfl, rfl⟩

theorem TextNode.IsForm.isXmlName {f : TextNode} (hf : f.IsForm) : IsXmlName f.name := by
  rcases hf with htype | htype
  · rw [TextNode.name, htype]
    decide +kernel
  · rw [TextNode.name, htype]
    decide +kernel

theorem Term.HasUsualRecords.everywhere_isWritable {t : Term} (ht : t.HasUsualRecords) :
    (Node.term t).Everywhere Node.IsWritable := by
  have h := ht.record
  have hkeys : t.attributes.keys = (NodeType.builtin .term).schema.map AttributeSpec.name :=
    h.2.keys _ h.1
  have hsublist := t.attributes.assignments_keys_sublist
  rw [hkeys] at hsublist
  refine .intro ⟨?_, fun a ha => ?_, ?_⟩ fun c hc => ?_
  · exact (by decide : IsXmlName "term")
  · have hnames : ∀ k ∈ (NodeType.builtin .term).schema.map AttributeSpec.name, IsXmlName k := by
      decide
    exact hnames _ (hsublist.subset (List.mem_map_of_mem ha))
  · exact (by decide : ((NodeType.builtin .term).schema.map AttributeSpec.name).Nodup).sublist
      hsublist
  · obtain ⟨f, hf, rfl⟩ := List.mem_map.1 hc
    have hrecord : (Node.text f).attributes.assignments = [] := by
      rw [Node.attributes, ht.forms f hf]
      rfl
    refine .intro ?_ fun d hd => absurd hd List.not_mem_nil
    rw [Node.IsWritable, hrecord]
    exact ⟨(isForm_of_mem_formNodes hf).isXmlName, by simp, List.nodup_nil⟩

namespace TermTable

section

variable {terms : List Term} (h : ∀ t ∈ terms, t.HasUsualRecords)
include h

theorem everywhere_isWritable : (Node.terms (ofTerms terms)).Everywhere Node.IsWritable := by
  refine .intro ⟨?_, fun a ha => absurd ha List.not_mem_nil, List.nodup_nil⟩ fun c hc => ?_
  · exact (by decide : IsXmlName "terms")
  · obtain ⟨t, ht, rfl⟩ := List.mem_map.1 hc
    exact (h t ht).everywhere_isWritable

/-- A written term table is read as the table of the restored terms. -/
theorem parse_toXml : TermTable.parse (Node.terms (ofTerms terms)).toXml =
    .ok ((ofTerms terms).replace Term.restored) := by
  have hbuild := build_terms (Registry.makes_terms (ofTerms terms)) fun t _ =>
    build_term (Registry.makes_term t) Registry.makes_form
  have hparse : Node.parse (Node.terms (ofTerms terms)).toXml =
      .ok (.terms (ofTerms terms).restored) :=
    (parseWith_toXml (everywhere_isWritable h)).trans hbuild
  rw [TermTable.parse, hparse, restored_eq]
  rfl

theorem parse_pretty : TermTable.parse (Node.terms (ofTerms terms)).pretty =
    TermTable.parse (Node.terms (ofTerms terms)).toXml := by
  have hparse : Node.parse (Node.terms (ofTerms terms)).pretty =
      Node.parse (Node.terms (ofTerms terms)).toXml := parseWith_pretty (everywhere_isWritable h)
  rw [TermTable.parse, hparse, TermTable.parse]

end

/-- A table of terms, however they were built, means the same after it is written, plainly or with
indentation, and read back: lookups and ordinal numbers select the same places, and what is rendered
is the same text. -/
theorem queries_after_round_trip (terms : List Term) (h : ∀ t ∈ terms, t.Built) :
    ∃ table', TermTable.parse (Node.terms (ofTerms terms)).toXml = .ok table' ∧
      TermTable.parse (Node.terms (ofTerms terms)).pretty = .ok table' ∧
      table'.size = terms.length ∧
      (∀ name options,
        table'.lookupIndex? name options = (ofTerms terms).lookupIndex? name options ∧
          table'.render? name options = (ofTerms terms).render? name options) ∧
      ∀ number, table'.longOrdinalIndex? number = (ofTerms terms).longOrdinalIndex? number ∧
        ∀ gender?,
          table'.ordinalIndex? number gender? = (ofTerms terms).ordinalIndex? number gender? := by
  have hrecords : ∀ t ∈ terms, t.HasUsualRecords := fun t ht => (h t ht).hasUsualRecords
  have hresembles : ∀ t ∈ (ofTerms terms).terms, t.restored.Resembles t :=
    fun t ht => (hrecords t ht).resembles_restored
  have hparse := parse_toXml hrecords
  refine ⟨(ofTerms terms).replace Term.restored, hparse, (parse_pretty hrecords).trans hparse, ?_,
    fun name options => ?_, fun number => ?_⟩
  · simp [replace, size]
  · exact ⟨lookupIndex?_replace hresembles name options, render?_replace hresembles name options⟩
  · exact ⟨longOrdinalIndex?_replace hresembles number, ordinalIndex?_replace hresembles number⟩

/-- A term without form, which does not come back as it was, is found and rendered as before. -/
theorem queries_after_cleared_form :
    ∃ table', TermTable.parse (Node.terms
        (ofTerms [((Term.named "page").clear "form").setText "<p>"])).toXml = .ok table' ∧
      table'.render? "page" .default =
        (ofTerms [((Term.named "page").clear "form").setText "<p>"]).render? "page" .default := by
  obtain ⟨table', hparse, -, -, hlookup, -⟩ := queries_after_round_trip
    [((Term.named "page").clear "form").setText "<p>"] fun t ht => by
      obtain rfl := List.mem_singleton.1 ht
      exact .setText "<p>" (.clear "form" (.named "page"))
  exact ⟨table', hparse, (hlookup "page" .default).2⟩

end TermTable

end CitationLocale
