import CitationLocale.Decimal.Basic

/-!
# Rounding to double precision

A fraction is stored as the nearest binary one with a mantissa below `2 ^ 53` and an exponent of at
least `-1074`; a tie goes to the even mantissa. Products and quotients are rounded in the same way.
-/

namespace CitationLocale

/-- The quotient of two numbers rounded to the nearest integer, ties to even. -/
def divideNearest (n d : Nat) : Nat :=
  let quotient := n / d
  let twice := 2 * (n % d)
  if twice > d || (twice == d && quotient % 2 == 1) then quotient + 1 else quotient

/-- The least exponent of a double precision number. -/
def leastExponent : Int := -1074

/-- The least mantissa of 53 bits, the fifty-second power of two. -/
def leastMantissa : Nat := 0x10000000000000

/-- Divides `n / d` by a power of two, as a fraction again. -/
def shiftFraction (n d : Nat) (exponent : Int) : Nat × Nat :=
  (n * Nat.pow 2 (-exponent).toNat, d * Nat.pow 2 exponent.toNat)

/-- The exponent under which `n / d` has a mantissa of 53 bits, or the least exponent. -/
def mantissaExponent (n d : Nat) : Int :=
  let guess := max ((n.log2 : Int) - (d.log2 : Int) - 53) leastExponent
  let (a, b) := shiftFraction n d guess
  if a / b ≥ 2 * leastMantissa then guess + 1 else guess

/-- The double precision number nearest to `n / d`, negated if `negative` holds. -/
def Dyadic.ofFraction (negative : Bool) (n d : Nat) : Dyadic :=
  let exponent := mantissaExponent n d
  let (a, b) := shiftFraction n d exponent
  let mantissa := divideNearest a b
  if mantissa = 0 then ⟨negative, 0, 0⟩
  else if mantissa = 2 * leastMantissa then ⟨negative, leastMantissa, exponent + 1⟩
  else ⟨negative, mantissa, exponent⟩

namespace Dyadic

/-- The double precision number nearest to `n`. -/
def ofNat (n : Nat) : Dyadic :=
  ofFraction false n 1

/-- The same number without its sign, as a fraction. -/
def toFraction (x : Dyadic) : Nat × Nat :=
  scaledFraction 2 x.mantissa x.exponent

/-- The product of two numbers, rounded. -/
def mul (x y : Dyadic) : Dyadic :=
  let (a, b) := x.toFraction
  let (c, d) := y.toFraction
  ofFraction (x.negative != y.negative) (a * c) (b * d)

/-- The quotient of two numbers, rounded. -/
def div (x y : Dyadic) : Dyadic :=
  let (a, b) := x.toFraction
  let (c, d) := y.toFraction
  ofFraction (x.negative != y.negative) (a * d) (b * c)

end Dyadic

end CitationLocale
