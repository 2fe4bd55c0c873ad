import CitationLocale.Node.Basic

/-!
# Adding to a node

A child or a run of text is either added without loss or refused. Text added to an element joins
the raw text at its end.
-/

namespace CitationLocale.Node

open Text

/-- The error for a child that a node does not admit. -/
def invalidChild (parent : String) (child : Node) : Error :=
  .invalidChild parent ("<" ++ child.name ++ ">")

/-- Adds a node as the last child. -/
def append (node child : Node) : Except Error Node :=
  match node with
  | .element type? name attributes children =>
    .ok (.element type? name attributes (children ++ [child]))
  | .terms table =>
    match child with
    | .term t => .ok (.terms (table.push t))
    | other => .error (invalidChild "terms" other)
  | .term t =>
    match child with
    | .text form => (t.attach form).map .term
    | other => .error (invalidChild "term" other)
  | .text t => .error (invalidChild t.name child)

/-- Adds text at the end of a list of children. -/
def pushRaw (text : String) : List Node → List Node
  | [] => [.text (.raw text)]
  | [.text t] => if t.isRaw then [.text (t.push text)] else [.text t, .text (.raw text)]
  | child :: children => child :: pushRaw text children

/-- Adds text to the content of a node. -/
def pushText (node : Node) (text : String) : Except Error Node :=
  match node with
  | .element type? name attributes children =>
    .ok (.element type? name attributes (pushRaw text children))
  | .text t => .ok (.text (t.push text))
  | .term t => (t.pushText text).map .term
  | .terms table =>
    if isBlank text then .ok (.terms table) else .error (.invalidChild "terms" "text")

end CitationLocale.Node
