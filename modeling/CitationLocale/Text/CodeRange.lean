/-!
# Sets of characters given by code point

A property of characters is written as a list of arithmetic runs of code points. Letters that
alternate between capital and small have runs of step two.
-/

namespace CitationLocale.Text

/-- The code points `first`, `first + step`, and so on, up to `last`. -/
structure CodeRange where
  first : Nat
  last : Nat
  step : Nat
deriving DecidableEq, Repr

/-- Whether a code point belongs to the run. -/
def CodeRange.contains (r : CodeRange) (n : Nat) : Bool :=
  r.first ≤ n && n ≤ r.last && (n - r.first) % r.step == 0

/-- Whether a character belongs to one of the runs. -/
def inRanges (rs : List CodeRange) (c : Char) : Bool :=
  rs.any fun r => r.contains c.toNat

end CitationLocale.Text
