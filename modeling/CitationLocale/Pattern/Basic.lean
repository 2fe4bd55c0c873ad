import CitationLocale.Text.CharSet

/-!
# Patterns of names

A pattern describes a set of texts and is searched for anywhere in a name. The search reads the
name once and keeps track of all occurrences at the same time: it marks the sets in the pattern
that some occurrence took the last character from. An occurrence ends where a mark can leave the
pattern. What is repeated is marked in copies, one for each number of repetitions that can be due
after it, so the search does not slow down as the bounds of a repetition grow.
-/

namespace CitationLocale

/-- How often something is still to be repeated: a least number, and a greatest one if there is a
limit. -/
structure Due where
  least : Nat
  greatest? : Option Nat
deriving DecidableEq, Repr

namespace Due

/-- What is due after one more repetition, if there may be one. Nothing has to come any more if
the repetitions can be empty. -/
def next? (d : Due) (skip : Bool) : Option Due :=
  if d.greatest? = some 0 then none
  else some ⟨if skip then 0 else d.least - 1, d.greatest?.map (· - 1)⟩

/-- Whether less is due: the limit decides, and then the least number. -/
def precedes (d e : Due) : Bool :=
  let m := d.greatest?.getD 0
  let n := e.greatest?.getD 0
  m < n || m == n && d.least < e.least

/-- Drops what is equal to the element before it. -/
def dropRepeats : List Due → List Due
  | d :: e :: ds => if d = e then dropRepeats (e :: ds) else d :: dropRepeats (e :: ds)
  | ds => ds

end Due

mutual

/-- A pattern. The mark of a set says whether the last character was taken from it; a pattern that
is not being searched for bears no marks and has no copies of what it repeats. -/
inductive Pattern where
  | empty
  | set (s : CharSet) (reached : Bool)
  | textStart
  | textEnd
  | append (p q : Pattern)
  | either (p q : Pattern)
  | repeated (p : Pattern) (due : Due) (copies : Copies)
deriving DecidableEq, Repr

/-- Marked copies of a pattern, each with what is due after it. -/
inductive Copies where
  | nil
  | cons (due : Due) (p : Pattern) (rest : Copies)
deriving DecidableEq, Repr

end

/-- A place between the characters of a text. -/
structure Place where
  isStart : Bool
  isEnd : Bool
deriving DecidableEq, Repr

namespace Pattern

/-- The pattern of one character of a set. -/
def oneOf (s : CharSet) : Pattern :=
  set s false

/-- Patterns in a row. -/
def appendAll (ps : List Pattern) : Pattern :=
  ps.foldr append empty

/-- Patterns to choose from. -/
def eitherAll : List Pattern → Pattern
  | [] => oneOf .empty
  | [p] => p
  | p :: ps => either p (eitherAll ps)

/-- The pattern of a fixed text. -/
def literal (cs : List Char) : Pattern :=
  appendAll (cs.map fun c => oneOf (.single c))

/-- The pattern that one repeats at least a number of times and at most another number of times, if
there is one. -/
def repeatedBetween (p : Pattern) (least : Nat) (greatest? : Option Nat) : Pattern :=
  repeated p ⟨least, greatest?⟩ .nil

/-! ## Occurrences -/

/-- Whether the empty text at a place is an occurrence. -/
def admitsEmpty (x : Place) : Pattern → Bool
  | empty => true
  | set _ _ => false
  | textStart => x.isStart
  | textEnd => x.isEnd
  | append p q => p.admitsEmpty x && q.admitsEmpty x
  | either p q => p.admitsEmpty x || q.admitsEmpty x
  | repeated p due _ => due.least == 0 || p.admitsEmpty x

end Pattern

mutual

/-- Whether an occurrence that ends with the last character ends at this place. -/
def Pattern.isReached (x : Place) : Pattern → Bool
  | .empty => false
  | .set _ reached => reached
  | .textStart => false
  | .textEnd => false
  | .append p q => p.isReached x && q.admitsEmpty x || q.isReached x
  | .either p q => p.isReached x || q.isReached x
  | .repeated p _ copies => copies.isReached x (p.admitsEmpty x)

/-- Whether such an occurrence of one of the copies can be the last that is due. -/
def Copies.isReached (x : Place) (skip : Bool) : Copies → Bool
  | .nil => false
  | .cons due p rest => p.isReached x && (due.least == 0 || skip) || rest.isReached x skip

end

mutual

/-- Whether the pattern bears a mark. -/
def Pattern.isMarked : Pattern → Bool
  | .empty => false
  | .set _ reached => reached
  | .textStart => false
  | .textEnd => false
  | .append p q => p.isMarked || q.isMarked
  | .either p q => p.isMarked || q.isMarked
  | .repeated _ _ copies => copies.isMarked

/-- Whether one of the copies bears a mark. -/
def Copies.isMarked : Copies → Bool
  | .nil => false
  | .cons _ p rest => p.isMarked || rest.isMarked

end

namespace Copies

/-- What is due after the repetitions that begin where those of the copies end. -/
def starts (x : Place) (skip : Bool) : Copies → List Due
  | nil => []
  | cons due p rest =>
    if p.isReached x then (due.next? skip).toList ++ rest.starts x skip else rest.starts x skip

/-- Puts a copy before others, if it bears a mark. -/
def consMarked (due : Due) (p : Pattern) (rest : Copies) : Copies :=
  if p.isMarked then cons due p rest else rest

/-- Puts equal copies before others, one for each of some dues. -/
def addAll (p : Pattern) (dues : List Due) (rest : Copies) : Copies :=
  dues.foldr (fun due rest => consMarked due p rest) rest

end Copies

mutual

/-- The marks after one more character, read at a place where an occurrence may also begin if
`entered` says so. -/
def Pattern.advance (x : Place) (c : Char) (entered : Bool) : Pattern → Pattern
  | .empty => .empty
  | .set s _ => .set s (entered && s.contains c)
  | .textStart => .textStart
  | .textEnd => .textEnd
  | .append p q =>
    let passed := entered && p.admitsEmpty x || p.isReached x
    .append (p.advance x c entered) (q.advance x c passed)
  | .either p q => .either (p.advance x c entered) (q.advance x c entered)
  | .repeated p due copies =>
    let skip := p.admitsEmpty x
    let first := if entered then (due.next? skip).toList else []
    let starts := Due.dropRepeats (copies.starts x skip ++ first)
    .repeated p due (copies.advance x c (p.advance x c true) starts)

/-- The marks in copies after one more character, where repetitions begin with the given dues. A
copy with the same due is entered; for the others there is a fresh copy, which has already read the
character. Copies stay in the order of their dues. -/
def Copies.advance (x : Place) (c : Char) (fresh : Pattern) (starts : List Due) : Copies → Copies
  | .nil => Copies.addAll fresh starts .nil
  | .cons due p rest =>
    let earlier := starts.takeWhile fun d => d.precedes due
    let later := starts.drop earlier.length
    let entered := later.head? == some due
    Copies.addAll fresh earlier (Copies.consMarked due (p.advance x c entered)
      (rest.advance x c fresh (if entered then later.tail else later)))

end

namespace Pattern

/-- Whether an occurrence ends at the start of a text or further right. -/
def occursFrom (isStart : Bool) (p : Pattern) : List Char → Bool
  | [] => p.admitsEmpty ⟨isStart, true⟩ || p.isReached ⟨isStart, true⟩
  | c :: cs =>
    p.admitsEmpty ⟨isStart, false⟩ || p.isReached ⟨isStart, false⟩ ||
      occursFrom false (p.advance ⟨isStart, false⟩ c true) cs

/-- Whether the pattern occurs anywhere in a text. -/
def occursIn (p : Pattern) (s : String) : Bool :=
  p.occursFrom true s.toList

end Pattern

end CitationLocale
