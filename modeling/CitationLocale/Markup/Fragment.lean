import CitationLocale.Markup.Escape
import CitationLocale.Node.Outline

/-!
# Writing markup

An outline is written as a row of fragments: tags and texts. Attributes that have their default
are left out, and so is the end tag of a node without content. Text of its own stands between
tags even if it is empty; raw text below another node stands without tags.
-/

namespace CitationLocale

/-- The attributes of a node that are written: those with a value other than their default. -/
def Attributes.assignments (r : Attributes) : List (String × String) :=
  r.assigned.filter fun a => !r.isDefault a.1

namespace Markup

inductive Fragment where
  | start (name : String) (attributes : List (String × String))
  | empty (name : String) (attributes : List (String × String))
  | close (name : String)
  | text (content : String)
deriving DecidableEq, Repr

/-- An attribute as it is written. -/
def attributeChars (a : String × String) : List Char :=
  ' ' :: a.1.toList ++ '=' :: '"' :: escape a.2.toList ++ ['"']

/-- The characters of a fragment. -/
def Fragment.chars : Fragment → List Char
  | .start name attributes =>
    '<' :: name.toList ++ attributes.flatMap attributeChars ++ ['>']
  | .empty name attributes =>
    '<' :: name.toList ++ attributes.flatMap attributeChars ++ ['/', '>']
  | .close name => '<' :: '/' :: name.toList ++ ['>']
  | .text content => escape content.toList

/-- The text of a fragment. -/
def Fragment.write (f : Fragment) : String :=
  String.ofList f.chars

end Markup

open Markup

namespace Outline

mutual

/-- The fragments of an outline. -/
def fragments : Outline → List Fragment
  | node label children =>
    let attributes := label.attributes.assignments
    match label.text?, children with
    | some text, _ => [.start label.name attributes, .text text, .close label.name]
    | none, [] => [.empty label.name attributes]
    | none, children =>
      .start label.name attributes :: (childFragments children ++ [.close label.name])

/-- The fragments of the outlines below another one. -/
def childFragments : List Outline → List Fragment
  | [] => []
  | o :: os =>
    (if o.label.raw then [.text (o.label.text?.getD "")] else fragments o) ++ childFragments os

end

/-- The markup of an outline as characters. -/
def markup (o : Outline) : List Char :=
  o.fragments.flatMap Fragment.chars

/-- The markup of an outline. -/
def toXml (o : Outline) : String :=
  String.ofList o.markup

/-! ## Indented markup -/

/-- A line of indented markup. -/
structure Line where
  depth : Nat
  fragments : List Fragment

/-- The characters of a line: two spaces for every level, then the fragments. -/
def Line.chars (l : Line) : List Char :=
  List.replicate (2 * l.depth) ' ' ++ l.fragments.flatMap Fragment.chars

/-- Whether an outline is written on one line: it has no children, or raw text among them. -/
def isInline (o : Outline) : Bool :=
  o.children.isEmpty || o.label.text?.isSome || o.children.any fun c => c.label.raw

mutual

/-- The lines of an outline at some depth. -/
def lines (depth : Nat) : Outline → List Line
  | node label children =>
    if isInline (node label children) then
      [⟨depth, fragments (node label children)⟩]
    else
      ⟨depth, [.start label.name label.attributes.assignments]⟩ ::
        (childLines (depth + 1) children ++ [⟨depth, [.close label.name]⟩])

/-- The lines of the outlines below another one. -/
def childLines (depth : Nat) : List Outline → List Line
  | [] => []
  | o :: os => lines depth o ++ childLines depth os

end

/-- The markup of an outline with indented lines. -/
def pretty (o : Outline) : String :=
  String.ofList (['\n'].intercalate ((o.lines 0).map Line.chars))

end Outline

namespace Node

/-- The markup of a node. -/
def toXml (n : Node) : String :=
  n.outline.toXml

/-- The markup of a node with indented lines. -/
def pretty (n : Node) : String :=
  n.outline.pretty

end Node

end CitationLocale
