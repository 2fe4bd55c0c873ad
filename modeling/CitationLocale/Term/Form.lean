import CitationLocale.Error

/-!
# Forms, genders and match rules

The attributes of a term whose values are drawn from a fixed list, with their spellings. A form
that a locale lacks is replaced by a more general one; the long form is the most general.
-/

namespace CitationLocale

inductive TermForm where
  | long
  | short
  | verb
  | verbShort
  | symbol
deriving DecidableEq, Repr

inductive Gender where
  | neutral
  | masculine
  | feminine
deriving DecidableEq, Repr

/-- How many digits of a number an ordinal term has to match. -/
inductive OrdinalMatch where
  | lastDigit
  | lastTwoDigits
  | wholeNumber
deriving DecidableEq, Repr

namespace TermForm

/-- The spelling of a form. -/
def text : TermForm → String
  | long => "long"
  | short => "short"
  | verb => "verb"
  | verbShort => "verb-short"
  | symbol => "symbol"

/-- The form with a spelling. -/
def ofText? (s : String) : Option TermForm :=
  if s = "long" then some long
  else if s = "short" then some short
  else if s = "verb" then some verb
  else if s = "verb-short" then some verbShort
  else if s = "symbol" then some symbol
  else none

/-- Reads a form. -/
def read (s : String) : Except Error TermForm :=
  match ofText? s with
  | some form => .ok form
  | none =>
    .error (.invalidAttributeValue "form" s "long, short, verb, verb-short or symbol")

/-- The forms to try for a requested one, in order. -/
def fallbacks : TermForm → List TermForm
  | long => [long]
  | short => [short, long]
  | verb => [verb, long]
  | verbShort => [verbShort, verb, long]
  | symbol => [symbol, short, long]

end TermForm

namespace Gender

/-- The spelling of a gender. -/
def text : Gender → String
  | neutral => "neutral"
  | masculine => "masculine"
  | feminine => "feminine"

/-- The gender with a spelling; the neutral one has two. -/
def ofText? (s : String) : Option Gender :=
  if s = "neutral" ∨ s = "none" then some neutral
  else if s = "masculine" then some masculine
  else if s = "feminine" then some feminine
  else none

/-- Reads a gender. -/
def read (s : String) : Except Error Gender :=
  match ofText? s with
  | some gender => .ok gender
  | none => .error (.invalidAttributeValue "gender" s "masculine or feminine")

end Gender

namespace OrdinalMatch

/-- The spelling of a match rule. -/
def text : OrdinalMatch → String
  | lastDigit => "last-digit"
  | lastTwoDigits => "last-two-digits"
  | wholeNumber => "whole-number"

/-- The match rule with a spelling. -/
def ofText? (s : String) : Option OrdinalMatch :=
  if s = "last-digit" then some lastDigit
  else if s = "last-two-digits" then some lastTwoDigits
  else if s = "whole-number" then some wholeNumber
  else none

/-- Reads a match rule. -/
def read (s : String) : Except Error OrdinalMatch :=
  match ofText? s with
  | some rule => .ok rule
  | none =>
    .error (.invalidAttributeValue "match" s "last-digit, last-two-digits or whole-number")

end OrdinalMatch

end CitationLocale
