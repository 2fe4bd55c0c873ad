import CitationLocale.NodeType

/-!
# Text nodes

A text node holds text and nothing below it. Raw text, as it stands between tags, has no type; a
typed text node is an element that holds text only.
-/

namespace CitationLocale

structure TextNode where
  type? : Option NodeType
  attributes : Attributes
  text : String
deriving DecidableEq, Repr

namespace TextNode

/-- Raw text. -/
def raw (text : String) : TextNode :=
  ⟨none, .empty, text⟩

/-- A text node of a type. -/
def typed (type : NodeType) (supplied : Attributes) (text : String) : TextNode :=
  ⟨some type, createAttributes (some type) supplied, text⟩

/-- Whether the node is raw text. -/
def isRaw (t : TextNode) : Bool :=
  t.type?.isNone

/-- The name under which the node is written on its own. -/
def name (t : TextNode) : String :=
  match t.type? with
  | some type => type.name
  | none => "text-node"

/-- Appends text. -/
def push (t : TextNode) (text : String) : TextNode :=
  { t with text := t.text ++ text }

end TextNode

end CitationLocale
