import CitationLocale.Node.Basic

/-!
# Outlines

An outline shows a node and everything below it in one uniform shape: a label and further
outlines. What only looks at a tree, such as comparing or writing it, is defined on outlines.
-/

namespace CitationLocale

/-- What an outline shows of a single node. -/
structure Label where
  type? : Option NodeType
  name : String
  attributes : Attributes
  text? : Option String
  raw : Bool
deriving DecidableEq, Repr

inductive Outline where
  | node (label : Label) (children : List Outline)

namespace Outline

/-- The label at the root. -/
def label : Outline → Label
  | node label _ => label

/-- The outlines directly below the root. -/
def children : Outline → List Outline
  | node _ children => children

/-- The outline at a path of child indices. -/
def at? : Outline → List Nat → Option Outline
  | o, [] => some o
  | o, i :: path => do
    let child ← o.children[i]?
    at? child path

mutual

/-- Everything below the root in document order. -/
def descendants : Outline → List Outline
  | node _ children => withDescendants children

/-- Some outlines, each followed by everything below it. -/
def withDescendants : List Outline → List Outline
  | [] => []
  | o :: os => o :: (o.descendants ++ withDescendants os)

end

end Outline

/-- What an outline shows of a node itself. -/
def Node.label (n : Node) : Label :=
  ⟨n.type?, n.name, n.attributes, n.text?, n.isRaw⟩

/-- The outline of a text node. -/
def TextNode.outline (t : TextNode) : Outline :=
  .node (Node.text t).label []

/-- The outline of a term: its forms are its children. -/
def Term.outline (t : Term) : Outline :=
  .node (Node.term t).label (t.formNodes.map TextNode.outline)

/-- The outline of a term table. -/
def TermTable.outline (table : TermTable) : Outline :=
  .node (Node.terms table).label (table.terms.map Term.outline)

mutual

/-- The outline of a node. -/
def Node.outline : Node → Outline
  | .element type? name attributes children =>
    .node ⟨type?, name, attributes, none, false⟩ (outlines children)
  | .text t => t.outline
  | .term t => t.outline
  | .terms table => table.outline

/-- The outlines of some nodes. -/
def Node.outlines : List Node → List Outline
  | [] => []
  | n :: ns => n.outline :: outlines ns

end

end CitationLocale
