import CitationLocale.Pattern.Escape
import CitationLocale.Text.CaseFolding

/-!
# Classes of characters in patterns

A class is written in brackets: single characters, ranges, escapes, named ASCII classes such as
`[:alpha:]`, and further classes. `&&`, `--` and `~~` intersect what stands on the left with what
stands on the right, take it away, or keep what is in one of the two only; they bind more loosely
than juxtaposition and group to the left.

Where case is disregarded, a set is closed under case before it is complemented or combined with
another one, so that a negated class leaves out all variants of its characters.
-/

namespace CitationLocale.Pattern

/-- The named classes with their ranges. -/
def asciiClasses : List (String × List (Char × Char)) := [
  ("alnum", [('0', '9'), ('A', 'Z'), ('a', 'z')]),
  ("alpha", [('A', 'Z'), ('a', 'z')]),
  ("ascii", [('\x00', '\x7f')]),
  ("blank", [('\t', '\t'), (' ', ' ')]),
  ("cntrl", [('\x00', '\x1f'), ('\x7f', '\x7f')]),
  ("digit", [('0', '9')]),
  ("graph", [('!', '~')]),
  ("lower", [('a', 'z')]),
  ("print", [(' ', '~')]),
  ("punct", [('!', '/'), (':', '@'), ('[', '\x60'), ('\x7b', '~')]),
  ("space", [('\t', '\r'), (' ', ' ')]),
  ("upper", [('A', 'Z')]),
  ("word", [('0', '9'), ('A', 'Z'), ('_', '_'), ('a', 'z')]),
  ("xdigit", [('0', '9'), ('A', 'F'), ('a', 'f')])]

/-- Drops the mark of negation, and tells whether it was there. -/
def dropNegation : List Char → Bool × List Char
  | '^' :: cs => (true, cs)
  | cs => (false, cs)

/-- Reads a named class, given what follows the opening bracket. -/
def readAsciiClass (caseless : Bool) : List Char → Option (CharSet × List Char)
  | ':' :: cs => do
    let (negated, cs) := dropNegation cs
    let bounds ← asciiClasses.lookup (String.ofList (cs.takeWhile (· != ':')))
    let s := CharSet.caseClosureIf caseless (.ofRanges bounds)
    match cs.dropWhile (· != ':') with
    | ':' :: ']' :: cs => some (s.complementIf negated, cs)
    | _ => none
  | _ => none

/-- Reads a single character of a class or an escape. -/
def readClassItem : List Char → Option (Escape × List Char)
  | '\\' :: cs => readEscape cs
  | c :: cs => some (.char c, cs)
  | [] => none

/-- The set that an item of a class stands for; the ends of the text are no characters. -/
def Escape.set? : Escape → Option CharSet
  | char c => some (.single c)
  | set s => some s
  | textStart => none
  | textEnd => none

/-- The range between two characters, of which the first is not greater. -/
def rangeBetween? : Escape → Escape → Option CharSet
  | .char low, .char high => if low ≤ high then some (.range low high) else none
  | _, _ => none

/-- Reads an item or a range. A hyphen makes a range unless the class ends after it or another
hyphen follows. -/
def readClassRange (cs : List Char) : Option (CharSet × List Char) := do
  let (low, cs) ← readClassItem cs
  match cs with
  | '-' :: after =>
    if after.head? == some ']' || after.head? == some '-' then low.set?.map (·, cs)
    else do
      let (high, cs) ← readClassItem after
      (rangeBetween? low high).map (·, cs)
  | cs => low.set?.map (·, cs)

/-- A part of a class: its set and the depth to which its notation is nested. -/
structure ClassPart where
  set : CharSet
  depth : Nat
deriving DecidableEq, Repr

namespace ClassPart

/-- The greatest depth of some parts. -/
def depthOf (ps : List ClassPart) : Nat :=
  ps.foldr (fun p n => max p.depth n) 0

/-- The union of the parts that stand side by side. -/
def join : List ClassPart → ClassPart
  | [p] => p
  | ps => ⟨.ofSpans (ps.flatMap fun p => p.set.spans), if ps.isEmpty then 0 else depthOf ps + 1⟩

end ClassPart

inductive SetOperation where
  | intersection
  | difference
  | exclusive
deriving DecidableEq, Repr

/-- The operation on sets. -/
def SetOperation.combine : SetOperation → CharSet → CharSet → CharSet
  | intersection => .intersection
  | difference => .difference
  | exclusive => .exclusive

/-- The operation that a text starts with. -/
def leadingOperation? : List Char → Option (SetOperation × List Char)
  | '&' :: '&' :: cs => some (.intersection, cs)
  | '-' :: '-' :: cs => some (.difference, cs)
  | '~' :: '~' :: cs => some (.exclusive, cs)
  | _ => none

/-- A class up to some point: the operation still to be done with its left side, and the parts
since then. -/
structure OpenClass where
  pending? : Option (SetOperation × ClassPart)
  parts : List ClassPart
deriving DecidableEq, Repr

namespace OpenClass

/-- Adds a part. -/
def push (x : OpenClass) (p : ClassPart) : OpenClass :=
  ⟨x.pending?, p :: x.parts⟩

/-- The class up to this point. -/
def close (caseless : Bool) (x : OpenClass) : ClassPart :=
  let right := ClassPart.join x.parts
  let closed := right.set.caseClosureIf caseless
  match x.pending? with
  | some (operation, left) =>
    ⟨operation.combine left.set closed, max left.depth right.depth + 1⟩
  | none => ⟨closed, right.depth⟩

/-- A class at its opening bracket and what is read with it: hyphens stand for themselves there,
and so does a closing bracket if no hyphen comes before it. -/
def atBracket (cs : List Char) : OpenClass × List Char :=
  match cs with
  | ']' :: cs => (⟨none, [⟨.single ']', 0⟩]⟩, cs)
  | cs =>
    let hyphens := cs.takeWhile (· == '-')
    (⟨none, hyphens.map fun c => ⟨.single c, 0⟩⟩, cs.drop hyphens.length)

end OpenClass

mutual

/-- Reads a class, given what follows the opening bracket. -/
def readClass (caseless : Bool) : Nat → List Char → Option (ClassPart × List Char)
  | 0, _ => none
  | fuel + 1, cs => do
    let (negated, cs) := dropNegation cs
    let (start, cs) := OpenClass.atBracket cs
    let (p, cs) ← readClassParts caseless fuel start cs
    some (⟨p.set.complementIf negated, p.depth + 1⟩, cs)

/-- Reads the rest of a class, the closing bracket included. -/
def readClassParts (caseless : Bool) :
    Nat → OpenClass → List Char → Option (ClassPart × List Char)
  | 0, _, _ => none
  | fuel + 1, x, cs =>
    match leadingOperation? cs with
    | some (operation, cs) =>
      readClassParts caseless fuel ⟨some (operation, x.close caseless), []⟩ cs
    | none =>
      match cs with
      | ']' :: cs => some (x.close caseless, cs)
      | '[' :: cs =>
        match readAsciiClass caseless cs with
        | some (s, cs) => readClassParts caseless fuel (x.push ⟨s, 0⟩) cs
        | none => do
          let (p, cs) ← readClass caseless fuel cs
          readClassParts caseless fuel (x.push p) cs
      | cs => do
        let (s, cs) ← readClassRange cs
        readClassParts caseless fuel (x.push ⟨s, 0⟩) cs

end

end CitationLocale.Pattern
