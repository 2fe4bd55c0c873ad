import CitationLocale.Decimal.Nearest

/-!
# The shortest decimal that reads back

Every double precision number owns an interval of numbers that round to it. Its decimal form is
the number of that interval with the fewest digits; among several with that many digits the one
nearest to the number itself, and of two equally near ones the one with an even last digit.
-/

namespace CitationLocale

/-- The numbers that round to a given one: all between `low / unit` and `high / unit`, with the
ends if `closed` holds. The given number itself is `centre / unit`. -/
structure RoundingInterval where
  low : Nat
  centre : Nat
  high : Nat
  unit : Nat
  closed : Bool

/-- The rounding interval of `m * 2 ^ q`. Below a power of two the spacing of numbers is halved. -/
def RoundingInterval.of (m : Nat) (q : Int) : RoundingInterval :=
  let scale := Nat.pow 2 (q - 2).toNat
  let below := if m = leastMantissa ∧ q > leastExponent then 1 else 2
  { low := (4 * m - below) * scale
    centre := 4 * m * scale
    high := (4 * m + 2) * scale
    unit := Nat.pow 2 (2 - q).toNat
    closed := m % 2 == 0 }

/-- Whether `n / d` lies in the interval. -/
def RoundingInterval.holds (i : RoundingInterval) (n d : Nat) : Bool :=
  let low := i.low * d
  let high := i.high * d
  let point := n * i.unit
  (low < point && point < high) || (i.closed && (low == point || point == high))

/-- The multiple of `10 ^ exponent` in the interval that is nearest to its centre, if there is
one among the two neighbours of the centre. -/
def RoundingInterval.onGrid? (i : RoundingInterval) (exponent : Int) : Option Nat :=
  let (step, d) := scaledFraction 10 1 exponent
  let below := i.centre * d / (step * i.unit)
  let rest := i.centre * d % (step * i.unit)
  let holdsBelow := i.holds (below * step) d
  let holdsAbove := i.holds ((below + 1) * step) d
  let aboveNearer := 2 * rest > step * i.unit || (2 * rest == step * i.unit && below % 2 == 1)
  if holdsBelow && !(holdsAbove && aboveNearer) then some below
  else if holdsAbove then some (below + 1)
  else none

/-- The power of ten just above `centre / unit`, found by trying `fuel` powers downwards. -/
def RoundingInterval.magnitude (i : RoundingInterval) : Nat → Int → Int
  | 0, exponent => exponent
  | fuel + 1, exponent =>
    let (step, d) := scaledFraction 10 1 (exponent - 1)
    if i.centre * d ≥ step * i.unit then exponent else i.magnitude fuel (exponent - 1)

/-- Tries one digit after the other, from the coarsest grid on. -/
def RoundingInterval.search (i : RoundingInterval) : Nat → Int → Nat × Int
  | 0, exponent => ((i.onGrid? exponent).getD 0, exponent)
  | fuel + 1, exponent =>
    match i.onGrid? exponent with
    | some c => (c, exponent)
    | none => i.search fuel (exponent - 1)

/-- Moves the trailing zeros of a coefficient into the exponent. -/
def stripZeros : Nat → Nat → Int → Nat × Int
  | 0, c, exponent => (c, exponent)
  | fuel + 1, c, exponent =>
    if c ≠ 0 ∧ c % 10 = 0 then stripZeros fuel (c / 10) (exponent + 1) else (c, exponent)

/-- The shortest decimal number that rounds to the given number. -/
def Dyadic.shortest (x : Dyadic) : Decimal :=
  if x.mantissa = 0 then ⟨x.negative, 0, 0⟩
  else
    let i := RoundingInterval.of x.mantissa x.exponent
    let (c, exponent) := i.search 17 (i.magnitude 700 310 - 1)
    let (c, exponent) := stripZeros 20 c exponent
    ⟨x.negative, c, exponent⟩

end CitationLocale
