import CitationLocale.Decimal.Nearest
import CitationLocale.Json.Basic

/-!
# Reading the numerals of JSON

A numeral with neither point nor exponent is an integer if 64 bits can hold it and it is not minus
zero. Any other numeral is a number of double precision: the leading digits that 64 bits can hold
are rounded first, the result is multiplied or divided by a power of ten that is rounded as well,
and this is rounded once more.
-/

namespace CitationLocale

/-- A numeral: a sign, the digits before the point, those after it, and the exponent. -/
structure Numeral where
  negative : Bool
  whole : List Nat
  fraction? : Option (List Nat)
  exponent? : Option Int
deriving DecidableEq, Repr

/-- Appends digits to a number while the result fits into 64 bits; the other digits are left. -/
def appendDigits (n : Nat) : List Nat → Nat × List Nat
  | [] => (n, [])
  | d :: ds =>
    if 10 * n + d < 2 * signedLimit then appendDigits (10 * n + d) ds else (n, d :: ds)

/-- The integer of 64 bits with a sign and a magnitude; minus zero is none. -/
def signedInteger? (negative : Bool) (magnitude : Nat) : Option Int :=
  if !negative then some magnitude
  else if magnitude ≠ 0 ∧ magnitude ≤ signedLimit then some (-magnitude)
  else none

namespace Dyadic

/-- The greatest power of ten that is a number of double precision. -/
def greatestPower : Nat := 308

/-- The number of double precision nearest to a power of ten. -/
def powerOfTen (k : Nat) : Dyadic :=
  ofNat (Nat.pow 10 k)

/-- Whether a number with a mantissa below `2 ^ 53` is in the range of double precision. -/
def isFinite (x : Dyadic) : Bool :=
  x.exponent ≤ 971

/-- A number times a power of ten, if that is in range. Below the least power of ten the number
is divided twice; lower still it becomes zero. -/
def scaleByTen? (x : Dyadic) (exponent : Int) : Option Dyadic :=
  if x.mantissa = 0 then some x
  else if exponent > greatestPower then none
  else if exponent ≥ 0 then Option.guard isFinite (x.mul (powerOfTen exponent.toNat))
  else if exponent ≥ -greatestPower then some (x.div (powerOfTen exponent.natAbs))
  else if exponent ≥ -2 * greatestPower then
    some ((x.div (powerOfTen greatestPower)).div (powerOfTen (exponent.natAbs - greatestPower)))
  else some ⟨x.negative, 0, 0⟩

end Dyadic

/-- The number of double precision that a numeral stands for, if it is in range. -/
def Numeral.double? (n : Numeral) : Option Dyadic :=
  let (head, dropped) := appendDigits 0 n.whole
  let fraction := n.fraction?.getD []
  let (significand, rest) := appendDigits head fraction
  let exponent := n.exponent?.getD 0 + dropped.length + rest.length - fraction.length
  (Dyadic.ofFraction n.negative significand 1).scaleByTen? exponent

/-- The integer that a numeral stands for. -/
def Numeral.integer? (n : Numeral) : Option Int :=
  match n.fraction?, n.exponent?, appendDigits 0 n.whole with
  | none, none, (magnitude, []) => signedInteger? n.negative magnitude
  | _, _, _ => none

/-- The number that a numeral stands for. -/
def Numeral.number? (n : Numeral) : Option JsonNumber :=
  match n.integer? with
  | some i => some (.integer i)
  | none => n.double?.map .double

end CitationLocale
