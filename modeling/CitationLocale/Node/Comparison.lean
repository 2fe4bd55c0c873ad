import CitationLocale.Node.Outline

/-!
# Comparing nodes

Nodes are ordered by name; of two nodes with one name those with different attributes, or with
text on one side and children on the other, cannot be compared. Texts are ordered by code point,
children one after the other, and of two lists of which one continues the other the shorter one
comes first.
-/

namespace CitationLocale

/-- The order of texts by code point. -/
def compareText (s t : String) : Ordering :=
  if s < t then .lt else if s = t then .eq else .gt

namespace Outline

mutual

/-- The order of two outlines, if they can be compared. -/
def compare? : Outline → Outline → Option Ordering
  | node a as, node b bs =>
    match compareText a.name b.name with
    | .eq =>
      if a.attributes.agrees b.attributes then
        match a.text?, b.text? with
        | some s, some t => some (compareText s t)
        | none, none => compareChildren? as bs
        | _, _ => none
      else none
    | order => some order

/-- The order of two lists of outlines. -/
def compareChildren? : List Outline → List Outline → Option Ordering
  | [], [] => some .eq
  | [], _ :: _ => some .lt
  | _ :: _, [] => some .gt
  | a :: as, b :: bs =>
    match compare? a b with
    | some .eq => compareChildren? as bs
    | order? => order?

end

end Outline

namespace Node

/-- The order of two nodes, if they can be compared. -/
def compare? (a b : Node) : Option Ordering :=
  a.outline.compare? b.outline

/-- Whether two nodes are equal. -/
def agrees (a b : Node) : Bool :=
  a.compare? b == some .eq

end Node

end CitationLocale
