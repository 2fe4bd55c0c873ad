/-!
# Decimal numbers and binary fractions

A decimal number is a sign, a coefficient and a power of ten; a binary fraction is a sign, a
mantissa and a power of two. Both keep the sign of zero.
-/

namespace CitationLocale

/-- The number `coefficient * 10 ^ exponent`, negated if `negative` holds. -/
structure Decimal where
  negative : Bool
  coefficient : Nat
  exponent : Int
deriving DecidableEq, Repr

/-- The number `mantissa * 2 ^ exponent`, negated if `negative` holds. -/
structure Dyadic where
  negative : Bool
  mantissa : Nat
  exponent : Int
deriving DecidableEq, Repr

/-- A positive fraction `numerator / denominator` scaled by a power of `base`. -/
def scaledFraction (base : Nat) (coefficient : Nat) (exponent : Int) : Nat × Nat :=
  (coefficient * base.pow exponent.toNat, base.pow (-exponent).toNat)

/-- The decimal digits of a number, without leading zeros. -/
def digitText (n : Nat) : List Char :=
  Nat.toDigits 10 n

end CitationLocale
