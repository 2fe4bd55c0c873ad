import CitationLocale.Node.Basic

/-!
# Nodes inside a tree

A path of child indices leads from a node through elements to a node inside it, which can be read
or replaced. Attributes can be reached one step further, in the terms of a table.
-/

namespace CitationLocale.Node

/-- The node at a path that goes through elements. -/
def at? : Node → List Nat → Option Node
  | n, [] => some n
  | .element _ _ _ children, i :: path => do
    let child ← children[i]?
    at? child path
  | _, _ :: _ => none

/-- Replaces the node at a path that goes through elements. -/
def replaceAt? : Node → List Nat → Node → Option Node
  | _, [], new => some new
  | .element type? name attributes children, i :: path, new => do
    let child ← children[i]?
    let child ← replaceAt? child path new
    some (.element type? name attributes (children.set i child))
  | _, _ :: _, _ => none

/-- Changes the attributes of a node. -/
def mapAttributes (f : Attributes → Attributes) : Node → Node
  | .element type? name attributes children => .element type? name (f attributes) children
  | .text t => .text { t with attributes := f t.attributes }
  | .term t => .term { t with attributes := f t.attributes }
  | .terms table => .terms { table with attributes := f table.attributes }

/-- The attributes at a path whose last step may lead from a term table to a term. -/
def attributesAt? : Node → List Nat → Option Attributes
  | n, [] => some n.attributes
  | .element _ _ _ children, i :: path => do
    let child ← children[i]?
    attributesAt? child path
  | .terms table, [i] => (table.terms[i]?).map fun t => t.attributes
  | _, _ :: _ => none

/-- Changes the attributes at a path whose last step may lead from a term table to a term. -/
def mapAttributesAt? (f : Attributes → Attributes) : Node → List Nat → Option Node
  | n, [] => some (n.mapAttributes f)
  | .element type? name attributes children, i :: path => do
    let child ← children[i]?
    let child ← mapAttributesAt? f child path
    some (.element type? name attributes (children.set i child))
  | .terms table, [i] => do
    let t ← table.terms[i]?
    some (.terms { table with terms := table.terms.set i { t with attributes := f t.attributes } })
  | _, _ :: _ => none

/-- Gives an element another name. -/
def rename? (name : String) : Node → Option Node
  | .element type? _ attributes children => some (.element type? name attributes children)
  | _ => none

/-- Replaces the text of a text node or the content of a term. -/
def setText? (text : String) : Node → Option Node
  | .text t => some (.text { t with text := text })
  | .term t => some (.term (t.setText text))
  | _ => none

/-- Inserts a child into an element, at its end if the index lies behind it. -/
def insert? : Node → Nat → Node → Option Node
  | .element type? name attributes children, index, child =>
    some (.element type? name attributes (children.insertIdx (min index children.length) child))
  | _, _, _ => none

/-- Removes a child of an element; the result is the child, if there is one, and what is left. -/
def remove? (index : Nat) : Node → Option (Option Node × Node)
  | .element type? name attributes children =>
    some (children[index]?, .element type? name attributes (children.eraseIdx index))
  | _ => none

/-- The children of an element that have a name. -/
def childrenNamed? (wanted : String) : Node → Option (List Node)
  | .element _ _ _ children => some (children.filter fun child => child.name == wanted)
  | _ => none

end CitationLocale.Node
