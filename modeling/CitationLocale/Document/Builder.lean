import CitationLocale.Markup.Token
import CitationLocale.Node.Growth
import CitationLocale.Registry

/-!
# Building a tree from tokens

The elements that are open form a stack, innermost first, each with the text read since its last
child. Pending text is added to its element before the next child and at the end; if it is blank
it is dropped, unless the element holds nothing but text.
-/

namespace CitationLocale

open Markup Text

/-- An element that is open, and the text that is still to be added to it. -/
structure OpenNode where
  node : Node
  pending : String

namespace OpenNode

/-- Adds the pending text, unless it is blank. -/
def flush (o : OpenNode) : Except Error OpenNode :=
  if isBlank o.pending then .ok ⟨o.node, ""⟩
  else (o.node.pushText o.pending).map (⟨·, ""⟩)

/-- Adds a child after the pending text. -/
def append (o : OpenNode) (child : Node) : Except Error OpenNode := do
  let o ← o.flush
  return { o with node := ← o.node.append child }

/-- The node when its end tag is reached. -/
def finish (o : OpenNode) : Except Error Node :=
  if o.node.holdsText then o.node.pushText o.pending
  else o.flush.map fun o => o.node

end OpenNode

/-- The state of building: the open elements and the root, once it is complete. -/
structure Builder where
  opened : List OpenNode
  root? : Option Node

namespace Builder

/-- Nothing is read yet. -/
def empty : Builder := ⟨[], none⟩

/-- Opens an element. -/
def push (b : Builder) (node : Node) : Except Error Builder :=
  match b.opened with
  | [] => .ok { b with opened := [⟨node, ""⟩] }
  | parent :: outer => do
    let parent ← parent.flush
    return { b with opened := ⟨node, ""⟩ :: parent :: outer }

/-- Puts a complete node into its parent, or makes it the root. -/
def attach (b : Builder) (node : Node) : Except Error Builder :=
  match b.opened with
  | parent :: outer => do
    let parent ← parent.append node
    return { b with opened := parent :: outer }
  | [] => if b.root?.isSome then .error .multipleRoots else .ok { b with root? := some node }

/-- Closes the innermost element. -/
def close (b : Builder) (name : String) : Except Error Builder :=
  match b.opened with
  | [] => .error (.unexpectedEndTag name)
  | innermost :: outer =>
    if innermost.node.name = name then do
      let node ← innermost.finish
      attach { b with opened := outer } node
    else .error (.mismatchedEndTag innermost.node.name name)

/-- Reads text; outside the root it is passed over. -/
def addText (b : Builder) (text : String) : Builder :=
  match b.opened with
  | [] => b
  | innermost :: outer =>
    { b with opened := { innermost with pending := innermost.pending ++ text } :: outer }

/-- Reads one token. -/
def step (r : Registry) (b : Builder) : Token → Except Error Builder
  | .start name attributes => b.push (r.create name (.ofPairs attributes))
  | .empty name attributes => b.attach (r.create name (.ofPairs attributes))
  | .close name => b.close name
  | .text text => .ok (b.addText text)
  | .cdata text => .ok (b.addText text)
  | .aside => .ok b

/-- The tree when the document ends. -/
def finish (b : Builder) : Except Error Node :=
  match b.opened, b.root? with
  | innermost :: _, _ =>
    .error (.unexpectedEof ("closing tag </" ++ innermost.node.name ++ ">"))
  | [], some root => .ok root
  | [], none => .error .emptyDocument

end Builder

end CitationLocale
