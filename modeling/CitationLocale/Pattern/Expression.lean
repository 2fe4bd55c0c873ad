import CitationLocale.Pattern.Basic

/-!
# Expressions of patterns

An expression is the structure of a pattern as it is written, in a simplified form: there are no
rows within rows and no choices within choices, neighbouring literals are joined, a choice between
characters or sets is a set, and what the rows of a choice begin with in common is written once.
The simplified form decides how large the automaton for the pattern becomes.
-/

namespace CitationLocale

inductive Expression where
  | empty
  | literal (text : List Char)
  | oneOf (s : CharSet)
  | textStart
  | textEnd
  | group (e : Expression)
  | repeated (least : Nat) (greatest? : Option Nat) (reluctant : Bool) (e : Expression)
  | row (es : List Expression)
  | choice (es : List Expression)

namespace Expression

/-! ## The lengths of occurrences and the anchors at their ends -/

/-- The sum of two numbers that are both known. -/
def addKnown (m n : Option Nat) : Option Nat := do
  some ((← m) + (← n))

mutual

/-- The least number of characters of an occurrence; unknown where a part never occurs. -/
def shortest? : Expression → Option Nat
  | empty => some 0
  | literal text => some text.length
  | oneOf s => if s.spans.isEmpty then none else some 1
  | textStart => some 0
  | textEnd => some 0
  | group e => e.shortest?
  | repeated least _ _ e => e.shortest?.map (· * least)
  | row es => shortestRow? es
  | choice es => shortestChoice? es

/-- The least number of characters of a row. -/
def shortestRow? : List Expression → Option Nat
  | [] => some 0
  | e :: es => addKnown e.shortest? (shortestRow? es)

/-- The least number of characters of a choice. -/
def shortestChoice? : List Expression → Option Nat
  | [] => none
  | [e] => e.shortest?
  | e :: es => do some (min (← e.shortest?) (← shortestChoice? es))

end

mutual

/-- Whether all occurrences are empty; not so where a part never occurs. -/
def isEmptyOnly : Expression → Bool
  | empty => true
  | literal text => text.isEmpty
  | oneOf _ => false
  | textStart => true
  | textEnd => true
  | group e => e.isEmptyOnly
  | repeated _ greatest? _ e => greatest?.isSome && e.isEmptyOnly
  | row es => allEmptyOnly es
  | choice es => allEmptyOnly es

/-- Whether all occurrences of some expressions are empty. -/
def allEmptyOnly : List Expression → Bool
  | [] => true
  | e :: es => e.isEmptyOnly && allEmptyOnly es

end

mutual

/-- Whether every occurrence is known to begin at the start of the text. -/
def beginsAtStart : Expression → Bool
  | textStart => true
  | group e => e.beginsAtStart
  | repeated least _ _ e => 0 < least && e.beginsAtStart
  | row es => rowBeginsAtStart es
  | choice es => allBeginAtStart es
  | _ => false

/-- Whether an expression of a row, with empty ones only before it, begins at the start. -/
def rowBeginsAtStart : List Expression → Bool
  | [] => false
  | e :: es => e.beginsAtStart || e.isEmptyOnly && rowBeginsAtStart es

/-- Whether all of some expressions begin at the start. -/
def allBeginAtStart : List Expression → Bool
  | [] => true
  | e :: es => e.beginsAtStart && allBeginAtStart es

end

mutual

/-- Whether every occurrence is known to end at the end of the text. -/
def endsAtEnd : Expression → Bool
  | textEnd => true
  | group e => e.endsAtEnd
  | repeated least _ _ e => 0 < least && e.endsAtEnd
  | row es => rowEndsAtEnd es
  | choice es => allEndAtEnd es
  | _ => false

/-- Whether an expression of a row, with empty ones only after it, ends at the end. -/
def rowEndsAtEnd : List Expression → Bool
  | [] => false
  | e :: es => rowEndsAtEnd es || e.endsAtEnd && allEmptyOnly es

/-- Whether all of some expressions end at the end. -/
def allEndAtEnd : List Expression → Bool
  | [] => true
  | e :: es => e.endsAtEnd && allEndAtEnd es

end

/-! ## Simplification -/

mutual

/-- Whether two expressions are written alike. Groups are numbered, so no two are alike. -/
def same : Expression → Expression → Bool
  | empty, empty => true
  | literal s, literal t => s == t
  | oneOf s, oneOf t => s == t
  | textStart, textStart => true
  | textEnd, textEnd => true
  | repeated m n r e, repeated m' n' r' e' => m == m' && n == n' && r == r' && e.same e'
  | row es, row es' => allSame es es'
  | choice es, choice es' => allSame es es'
  | _, _ => false

/-- Whether two lists of expressions are written alike. -/
def allSame : List Expression → List Expression → Bool
  | [], [] => true
  | e :: es, e' :: es' => e.same e' && allSame es es'
  | _, _ => false

end

/-- A character of a set; the set of a single character is a literal. -/
def ofSet (s : CharSet) : Expression :=
  match s.single? with
  | some c => literal [c]
  | none => oneOf s

/-- The expressions that one contributes to a row. -/
def rowParts : Expression → List Expression
  | empty => []
  | row es => es
  | e => [e]

/-- Puts an expression before a row; a literal is joined with one that follows. -/
def beforeRow : Expression → List Expression → List Expression
  | literal s, literal t :: es => literal (s ++ t) :: es
  | e, es => e :: es

/-- Expressions in a row. -/
def inRow (es : List Expression) : Expression :=
  match (es.flatMap rowParts).foldr beforeRow [] with
  | [] => empty
  | [e] => e
  | es => row es

/-- The expressions that one contributes to a choice. -/
def alternatives : Expression → List Expression
  | choice es => es
  | e => [e]

/-- The character of a literal of one character. -/
def singleChar? : Expression → Option Char
  | literal [c] => some c
  | _ => none

/-- The set of an expression that is a set. -/
def set? : Expression → Option CharSet
  | oneOf s => some s
  | _ => none

/-- A choice between expressions that have no common beginning. -/
def choiceOf (es : List Expression) : Expression :=
  match es.flatMap alternatives with
  | [] => oneOf .empty
  | [e] => e
  | es =>
    match es.mapM singleChar?, es.mapM set? with
    | some cs, _ => ofSet (.ofChars cs)
    | _, some ss => ofSet (.ofSpans (ss.flatMap fun s => s.spans))
    | none, none => choice es

/-- The expressions of a row of two or more. -/
def row? : Expression → Option (List Expression)
  | row es => some es
  | _ => none

/-- The longest beginning that two rows have in common. -/
def commonBeginning : List Expression → List Expression → List Expression
  | e :: es, e' :: es' => if e.same e' then e :: commonBeginning es es' else []
  | _, _ => []

/-- A choice between expressions. If all are rows, what they begin with in common is written once;
the rests have nothing in common that they all begin with. -/
def anyOf (es : List Expression) : Expression :=
  match (es.flatMap alternatives).mapM row? with
  | some (first :: second :: others) =>
    let rows := second :: others
    match rows.foldl commonBeginning first with
    | [] => choiceOf es
    | beginning =>
      inRow (beginning ++
        [choiceOf ((first :: rows).map fun es => inRow (es.drop beginning.length))])
  | _ => choiceOf es

/-- An expression repeated between two bounds. Repeating what is always empty is the same as having
it once. -/
def repeatedBetween (least : Nat) (greatest? : Option Nat) (reluctant : Bool) (e : Expression) :
    Expression :=
  let (least, greatest?) :=
    if e.isEmptyOnly then (min least 1, some (match greatest? with
      | some n => min n 1
      | none => 1))
    else (least, greatest?)
  if greatest? = some 0 then empty
  else if least = 1 ∧ greatest? = some 1 then e
  else repeated least greatest? reluctant e

/-! ## The pattern of an expression -/

mutual

/-- The pattern that an expression describes. -/
def toPattern : Expression → Pattern
  | empty => .empty
  | literal text => .literal text
  | oneOf s => .oneOf s
  | textStart => .textStart
  | textEnd => .textEnd
  | group e => e.toPattern
  | repeated least greatest? _ e => .repeatedBetween e.toPattern least greatest?
  | row es => .appendAll (toPatterns es)
  | choice es => .eitherAll (toPatterns es)

/-- The patterns of some expressions. -/
def toPatterns : List Expression → List Pattern
  | [] => []
  | e :: es => e.toPattern :: toPatterns es

end

end Expression

end CitationLocale
