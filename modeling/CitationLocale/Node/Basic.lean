import CitationLocale.TermTable.Basic

/-!
# Nodes

The tree of a document consists of elements, text nodes, terms and term tables. Elements take any
children, a term table takes terms, a term takes text or forms, and text nodes take nothing.
-/

namespace CitationLocale

inductive Node where
  | element (type? : Option NodeType) (name : String) (attributes : Attributes)
      (children : List Node)
  | text (t : TextNode)
  | term (t : Term)
  | terms (table : TermTable)

namespace Node

/-- An element without type. -/
def generic (name : String) (attributes : Attributes) : Node :=
  .element none name attributes []

/-- The name under which a node is written. -/
def name : Node → String
  | .element _ name _ _ => name
  | .text t => t.name
  | .term _ => "term"
  | .terms _ => "terms"

/-- The type of a node. -/
def type? : Node → Option NodeType
  | .element type? _ _ _ => type?
  | .text t => t.type?
  | .term _ => some (.builtin .term)
  | .terms _ => some (.builtin .terms)

/-- The attributes of a node. -/
def attributes : Node → Attributes
  | .element _ _ attributes _ => attributes
  | .text t => t.attributes
  | .term t => t.attributes
  | .terms table => table.attributes

/-- The text of a node that holds text of its own. -/
def text? : Node → Option String
  | .element .. => none
  | .text t => some t.text
  | .term t => t.text?
  | .terms _ => none

/-- Whether a node is raw text. -/
def isRaw : Node → Bool
  | .text t => t.isRaw
  | _ => false

/-- The nodes directly below a node. -/
def children : Node → List Node
  | .element _ _ _ children => children
  | .text _ => []
  | .term t => t.formNodes.map .text
  | .terms table => table.terms.map .term

/-- Whether pending text belongs to a node even if it is blank. -/
def holdsText : Node → Bool
  | .text _ => true
  | .term t => !t.hasForms
  | _ => false

end Node

end CitationLocale
