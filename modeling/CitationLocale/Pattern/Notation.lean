import CitationLocale.Pattern.Class
import CitationLocale.Pattern.Footprint

/-!
# The notation of patterns

A pattern is written as a regular expression: literals, `.`, the anchors `^` and `$`, escapes,
classes, groups, alternatives and repetitions, and `(?i)` at the start to disregard case. Text that
is no pattern in this notation is refused, and so is one that is nested too deeply or whose
automaton would be too large.
-/

namespace CitationLocale.Pattern

open Text

/-- A part of a pattern, with the depth to which its notation is nested. -/
structure Part where
  expression : Expression
  depth : Nat

/-- The greatest depth of a pattern. -/
def maxDepth : Nat := 250

namespace Part

/-- A literal character, which stands for all its variants if case is disregarded. -/
def literal (caseless : Bool) (c : Char) : Part :=
  ⟨.ofSet ((CharSet.single c).caseClosureIf caseless), 0⟩

/-- A character of a class. -/
def ofClass (p : ClassPart) : Part :=
  ⟨.ofSet p.set, p.depth⟩

/-- The part that an escape stands for. -/
def ofEscape (caseless : Bool) : Escape → Part
  | .char c => literal caseless c
  | .set s => ⟨.ofSet s, 0⟩
  | .textStart => ⟨.textStart, 0⟩
  | .textEnd => ⟨.textEnd, 0⟩

/-- A group, which may be numbered. -/
def group (numbered : Bool) (p : Part) : Part :=
  ⟨if numbered then .group p.expression else p.expression, p.depth + 1⟩

/-- The depth of parts that stand together: one more than that of the deepest, unless there are
fewer than two. -/
def depthOf (ps : List Part) : Nat :=
  match ps with
  | [] => 0
  | [p] => p.depth
  | ps => ps.foldr (fun p n => max p.depth n) 0 + 1

/-- Parts in a row. -/
def inRow (ps : List Part) : Part :=
  ⟨.inRow (ps.map fun p => p.expression), depthOf ps⟩

/-- Parts to choose from. -/
def anyOf (ps : List Part) : Part :=
  ⟨.anyOf (ps.map fun p => p.expression), depthOf ps⟩

/-- A part repeated between two bounds. -/
def repeated (least : Nat) (greatest? : Option Nat) (reluctant : Bool) (p : Part) : Part :=
  ⟨.repeatedBetween least greatest? reluctant p.expression, p.depth + 1⟩

end Part

/-! ## Repetitions -/

/-- Reads a number with white space around it. Numbers have 32 bits. -/
def readBound (cs : List Char) : Option (Nat × List Char) :=
  let cs := cs.dropWhile isWhite
  let digits := (cs.takeWhile Char.isDigit).filterMap asciiDigit?
  let n := digits.foldl (fun n d => 10 * n + d) 0
  if digits.isEmpty ∨ 0xFFFFFFFF < n then none
  else some (n, (cs.dropWhile Char.isDigit).dropWhile isWhite)

/-- Reads the bounds of a repetition, given what follows the opening brace. -/
def readBounds (cs : List Char) : Option ((Nat × Option Nat) × List Char) := do
  let (least, cs) ← readBound cs
  match cs with
  | '\x7d' :: cs => some ((least, some least), cs)
  | ',' :: '\x7d' :: cs => some ((least, none), cs)
  | ',' :: cs =>
    let (greatest, cs) ← readBound cs
    match cs with
    | '\x7d' :: cs => if least ≤ greatest then some ((least, some greatest), cs) else none
    | _ => none
  | _ => none

/-- Reads the bounds of a repetition, if there is one. -/
def readRepetition? : List Char → Option (Option ((Nat × Option Nat) × List Char))
  | '*' :: cs => some (some ((0, none), cs))
  | '+' :: cs => some (some ((1, none), cs))
  | '?' :: cs => some (some ((0, some 1), cs))
  | '\x7b' :: cs => (readBounds cs).map some
  | _ => some none

/-- Drops the mark of a reluctant repetition, and tells whether it was there. -/
def dropReluctance : List Char → Bool × List Char
  | '?' :: cs => (true, cs)
  | cs => (false, cs)

/-- Reads the repetitions after a part. A reluctant one finds the same texts. -/
def readRepetitions : Nat → Part → List Char → Option (Part × List Char)
  | 0, _, _ => none
  | fuel + 1, p, cs => do
    match ← readRepetition? cs with
    | some ((least, greatest?), cs) =>
      let (reluctant, cs) := dropReluctance cs
      readRepetitions fuel (p.repeated least greatest? reluctant) cs
    | none => some (p, cs)

/-! ## Alternatives, rows and groups -/

mutual

/-- Reads alternatives, each as the parts of a row. -/
def readChoice (caseless : Bool) : Nat → List Char → Option (List (List Part) × List Char)
  | 0, _ => none
  | fuel + 1, cs => do
    let (ps, cs) ← readRow caseless fuel cs
    match cs with
    | '|' :: cs => do
      let (others, cs) ← readChoice caseless fuel cs
      some (ps :: others, cs)
    | cs => some ([ps], cs)

/-- Reads the parts of a row, each with its repetitions. -/
def readRow (caseless : Bool) : Nat → List Char → Option (List Part × List Char)
  | 0, _ => none
  | fuel + 1, cs =>
    if cs.isEmpty || cs.head? == some '|' || cs.head? == some ')' then some ([], cs)
    else do
      let (p, cs) ← readPart caseless fuel cs
      let (p, cs) ← readRepetitions (cs.length + 1) p cs
      let (ps, cs) ← readRow caseless fuel cs
      some (p :: ps, cs)

/-- Reads a part without repetitions. -/
def readPart (caseless : Bool) : Nat → List Char → Option (Part × List Char)
  | 0, _ => none
  | fuel + 1, cs =>
    match cs with
    | '(' :: '?' :: ':' :: cs => readGroup caseless fuel false cs
    | '(' :: '?' :: _ => none
    | '(' :: cs => readGroup caseless fuel true cs
    | '[' :: cs =>
      (readClass caseless (2 * cs.length + 2) cs).map fun (p, cs) => (Part.ofClass p, cs)
    | '.' :: cs => some (⟨.oneOf (CharSet.single '\n').complement, 0⟩, cs)
    | '^' :: cs => some (⟨.textStart, 0⟩, cs)
    | '$' :: cs => some (⟨.textEnd, 0⟩, cs)
    | '\\' :: cs => (readEscape cs).map fun (e, cs) => (Part.ofEscape caseless e, cs)
    | c :: cs =>
      if ['*', '+', '?', '\x7b'].contains c then none else some (Part.literal caseless c, cs)
    | [] => none

/-- Reads a group, given what follows its opening. -/
def readGroup (caseless : Bool) : Nat → Bool → List Char → Option (Part × List Char)
  | 0, _, _ => none
  | fuel + 1, numbered, cs => do
    let (rows, cs) ← readChoice caseless fuel cs
    match cs with
    | ')' :: cs => some ((Part.anyOf (rows.map Part.inRow)).group numbered, cs)
    | _ => none

end

/-- The pattern of a whole notation, if it is not too large. -/
def ofPart? (p : Part) : Option Pattern :=
  if maxDepth < p.depth || p.expression.isTooLarge .forward || p.expression.isTooLarge .backward
  then none
  else some p.expression.toPattern

/-- Reads a whole pattern. The mark to disregard case counts as a part of the first row. -/
def ofChars? (cs : List Char) : Option Pattern :=
  let (caseless, cs) := match cs with
    | '(' :: '?' :: 'i' :: ')' :: cs => (true, cs)
    | cs => (false, cs)
  match readChoice caseless (4 * cs.length + 4) cs with
  | some (row :: rows, []) =>
    let row := if caseless then ⟨.empty, 0⟩ :: row else row
    ofPart? (.anyOf ((row :: rows).map Part.inRow))
  | _ => none

/-- The pattern with a notation. -/
def ofText? (s : String) : Option Pattern :=
  ofChars? s.toList

end CitationLocale.Pattern
