import CitationLocale.Decimal.Basic

/-!
# Writing a decimal number

A number of moderate size is written in full with at least one digit after the point; any other
one as a coefficient between one and ten with an exponent. Which sizes are moderate is a matter
of the format that uses the number.
-/

namespace CitationLocale

/-- The range of decimal exponents for which a number is written in full. -/
structure DecimalLayout where
  leastPlain : Int
  greatestPlain : Int

/-- A number written in full: `digits` before its last `fraction` places, and those. -/
def plainText (digits : List Char) (fraction : Nat) : List Char :=
  let padded := List.replicate (fraction + 1 - digits.length) '0' ++ digits
  let whole := padded.take (padded.length - fraction)
  let rest := padded.drop (padded.length - fraction)
  whole ++ '.' :: (if rest.isEmpty then ['0'] else rest)

/-- A number written with an exponent; the point stands only before further digits. -/
def scientificText (digits : List Char) (exponent : Int) : List Char :=
  let coefficient :=
    match digits with
    | d :: e :: ds => d :: '.' :: e :: ds
    | ds => ds
  let sign := if exponent < 0 then '-' else '+'
  coefficient ++ 'e' :: sign :: digitText exponent.natAbs

/-- The text of a decimal number whose coefficient has no trailing zero. -/
def DecimalLayout.text (layout : DecimalLayout) (x : Decimal) : List Char :=
  let digits := digitText x.coefficient
  let magnitude := x.exponent + (digits.length : Int) - 1
  let body :=
    if layout.leastPlain ≤ magnitude ∧ magnitude ≤ layout.greatestPlain then
      plainText (digits ++ List.replicate x.exponent.toNat '0') (-x.exponent).toNat
    else
      scientificText digits magnitude
  if x.negative then '-' :: body else body

end CitationLocale
