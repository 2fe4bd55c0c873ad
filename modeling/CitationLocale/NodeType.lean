import CitationLocale.Attributes.Merge
import CitationLocale.TagName

/-!
# Node types

A node type says how nodes with a certain tag are built and which attributes they have. Six types
are built in. Further types can be declared; each declaration has a serial number, so two types
with the same contents are still different types.
-/

namespace CitationLocale

/-- Where nodes of a type may occur. Every type belongs to the category of all nodes. -/
inductive Category where
  | node
  | locale
  | term
deriving DecidableEq, Repr

/-- How nodes of a type are built. -/
inductive Variant where
  | branch
  | leaf
  | term
  | termTable
deriving DecidableEq, Repr

/-- The contents of a node type. -/
structure Declaration where
  ident : String
  tag? : Option String
  schema : Schema
  variant : Variant
  nesting : List Category
deriving DecidableEq, Repr

/-- The built-in node types. -/
inductive Builtin where
  | locale
  | styleOptions
  | terms
  | term
  | single
  | multiple
deriving DecidableEq, Repr

/-- The attributes of a term. -/
def termSchema : Schema :=
  [⟨"name", none⟩, ⟨"form", some "long"⟩, ⟨"gender", none⟩, ⟨"gender-form", none⟩, ⟨"match", none⟩]

/-- The contents of a built-in node type. -/
def Builtin.declaration : Builtin → Declaration
  | .locale =>
    ⟨"Locale", some "locale", [⟨"xmlns", none⟩, ⟨"version", none⟩, ⟨"xml:lang", none⟩], .branch, []⟩
  | .styleOptions =>
    ⟨"StyleOptions", none, [⟨"limit-day-ordinals-to-day-1", none⟩, ⟨"punctuation-in-quote", none⟩],
      .branch, [.locale]⟩
  | .terms => ⟨"Terms", some "terms", [], .termTable, [.locale]⟩
  | .term => ⟨"Term", some "term", termSchema, .term, [.locale]⟩
  | .single => ⟨"Single", none, [], .leaf, [.locale, .term]⟩
  | .multiple => ⟨"Multiple", none, [], .leaf, [.locale, .term]⟩

/-- The built-in node types in the order in which they are registered. -/
def Builtin.all : List Builtin :=
  [.locale, .styleOptions, .terms, .term, .single, .multiple]

/-- A built-in node type or one that was declared later. -/
inductive NodeType where
  | builtin (b : Builtin)
  | declared (serial : Nat) (declaration : Declaration)
deriving DecidableEq, Repr

namespace NodeType

/-- The contents of a node type. -/
def declaration : NodeType → Declaration
  | builtin b => b.declaration
  | declared _ d => d

/-- The attributes of nodes of this type. -/
def schema (t : NodeType) : Schema := t.declaration.schema

/-- How nodes of this type are built. -/
def variant (t : NodeType) : Variant := t.declaration.variant

/-- The tag of nodes of this type: the declared one, or the one derived from the identifier. -/
def name (t : NodeType) : String :=
  t.declaration.tag?.getD (canonicalName t.declaration.ident)

/-- Whether nodes of this type hold text only. -/
def isLeaf (t : NodeType) : Bool :=
  t.variant == .leaf

/-- The categories under which a type is listed, in order and with repetitions. -/
def categories (t : NodeType) : List Category :=
  .node :: t.declaration.nesting

end NodeType

/-- The attributes of a new node: the defaults of its type overlaid by the supplied values, or
the supplied record itself if the node has no type. -/
def createAttributes (type? : Option NodeType) (supplied : Attributes) : Attributes :=
  match type? with
  | some t => (Attributes.defaults t.schema).merge supplied
  | none => supplied

end CitationLocale
