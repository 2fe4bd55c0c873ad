import CitationLocale.Pattern.Expression
import CitationLocale.Pattern.Trie
import CitationLocale.Text.Spelling

/-!
# Automata for patterns

A pattern can be searched for by an automaton that reads the bytes of the text, forwards or
backwards. This module says which states such an automaton consists of and in which order they are
laid out; the forward one has states at the ends of groups, and the backward one has not. A state
with several ways out takes additional room for each.
-/

namespace CitationLocale

inductive Direction where
  | forward
  | backward
deriving DecidableEq, Repr

/-- The states of an automaton in the order in which they are laid out. -/
inductive Layout where
  | states (count room : Nat)
  | spelled (ss : List Spelling)
  | append (p q : Layout)
  | times (n : Nat) (p : Layout)
deriving DecidableEq, Repr

namespace Layout

/-- The room that a transition takes in a state with several. -/
def transitionRoom : Nat := 8

/-- The room that each way out of a fork takes. -/
def forkRoom : Nat := 4

/-- A single state. -/
def state : Layout :=
  states 1 0

/-- A state with two ways out. -/
def fork : Layout :=
  states 1 (2 * forkRoom)

/-- Layouts in a row. -/
def appendAll : List Layout → Layout
  | [] => state
  | [p] => p
  | p :: ps => append p (appendAll ps)

/-- A fixed number of repetitions. -/
def exactly (n : Nat) (p : Layout) : Layout :=
  if n = 0 then state else times n p

/-- A choice: the first two alternatives, a fork to them, its end, and the others. -/
def choice : List Layout → Layout
  | p :: q :: ps =>
    append (append p q) (append (append fork state)
      (ps.foldr (fun p rest => append (append p (states 0 forkRoom)) rest) (states 0 0)))
  | ps => appendAll ps

/-- One of some characters. ASCII characters are the transitions of one state. -/
def ofSet (s : CharSet) : Layout :=
  if s.isAscii then states 2 (s.spans.length * transitionRoom) else spelled s.spellings

/-- The state for a number of transitions from one place of a trie, if there are any. -/
def ofTransitions (n : Nat) : Layout :=
  if n = 0 then states 0 0 else states 1 (if n = 1 then 0 else n * transitionRoom)

/-- The states of a trie. Each place with branches has a state for the branches between two stops
and a fork to these states and the stops. `branches` counts the branches since the last stop and
`ways` the ways out of the fork. -/
def ofTrieFrom (branches ways : Nat) : Trie → Layout
  | .nil =>
    append (ofTransitions branches) (states 1 ((ways + if branches = 0 then 0 else 1) * forkRoom))
  | .stop next =>
    append (ofTransitions branches) (ofTrieFrom 0 (ways + if branches = 0 then 1 else 2) next)
  | .branch _ below next =>
    append (if below.isLeaf then states 0 0 else ofTrieFrom 0 0 below)
      (ofTrieFrom (branches + 1) ways next)

/-- The states of a trie, after the end that all texts have in common. -/
def ofTrie (t : Trie) : Layout :=
  append state (ofTrieFrom 0 0 t)

end Layout

/-- The bytes of a text in the order in which they are read. -/
def Direction.bytes (d : Direction) (text : List Char) : List Nat :=
  let bytes := (String.ofList text).toUTF8.toList.map UInt8.toNat
  match d with
  | .forward => bytes
  | .backward => bytes.reverse

/-- Layouts in the order in which they are read. -/
def Direction.inOrder (d : Direction) (ps : List Layout) : List Layout :=
  match d with
  | .forward => ps
  | .backward => ps.reverse

namespace Expression

open Layout

/-- The text of an expression that is a literal. -/
def text? : Expression → Option (List Char)
  | literal text => some text
  | _ => none

/-- The layout of a repetition, given the layout of what is repeated and whether that is never
empty. -/
def repetitionLayout (p : Layout) (neverEmpty : Bool) (least : Nat) : Option Nat → Layout
  | some greatest =>
    if least = 0 ∧ greatest = 1 then append fork (append p state)
    else if least = greatest then exactly least p
    else append (exactly least p) (append state (times (greatest - least) (append fork p)))
  | none =>
    if least = 0 then
      if neverEmpty then append fork p else append p (append fork (append fork state))
    else append (times least p) fork

mutual

/-- The layout of an expression in an automaton. -/
def layout (d : Direction) : Expression → Layout
  | empty => state
  | literal text => states (d.bytes text).length 0
  | oneOf s => .ofSet s
  | textStart => state
  | textEnd => state
  | group e =>
    match d with
    | .forward => append state (append (e.layout d) state)
    | .backward => e.layout d
  | repeated least greatest? _ e =>
    repetitionLayout (e.layout d) (0 < e.shortest?.getD 0) least greatest?
  | row es => appendAll (d.inOrder (layouts d es))
  | choice es =>
    match es.mapM text? with
    | some texts => .ofTrie (.ofTexts (texts.map d.bytes))
    | none => .choice (layouts d es)

/-- The layouts of some expressions. -/
def layouts (d : Direction) : List Expression → List Layout
  | [] => []
  | e :: es => e.layout d :: layouts d es

end

/-- Whether a search in a direction can only begin at one end of the text. -/
def isAnchored (d : Direction) (e : Expression) : Bool :=
  match d with
  | .forward => e.beginsAtStart
  | .backward => e.endsAtEnd

/-- The layout of the whole automaton: a loop over the bytes before an occurrence, unless the
search is anchored, the expression as a group, and the state that accepts. -/
def automaton (d : Direction) (e : Expression) : Layout :=
  let before := if e.isAnchored d then state else append fork (states 2 transitionRoom)
  append before (append ((group e).layout d) state)

end Expression

end CitationLocale
