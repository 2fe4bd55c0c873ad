import CitationLocale.Text.DecimalDigit

/-!
# Names of ordinal terms

The endings of ordinal numbers are terms with reserved names: `ordinal` for any number,
`ordinal-NN` for numbers that end in the given digits, and `long-ordinal-NN` for numbers written
as words. The two digits may be decimal digits of any script, but only the ASCII ones make a
number; without a number a short name counts as the general one.
-/

namespace CitationLocale

open Text

/-- What the name of an ordinal term says about the numbers it is for. -/
inductive OrdinalClass where
  | generic
  | short (n : Nat)
  | long (n : Nat)
deriving DecidableEq, Repr

namespace OrdinalClass

/-- The digits of an ordinal name, if it has any: nothing, or a hyphen and two digits. -/
def digits? : List Char → Option (Option (Char × Char))
  | [] => some none
  | ['-', a, b] => if isDecimalDigit a && isDecimalDigit b then some (some (a, b)) else none
  | _ => none

/-- The number of two digits. -/
def number? : Char × Char → Option Nat
  | (a, b) => do return 10 * (← asciiDigit? a) + (← asciiDigit? b)

/-- The word that short names start with. -/
def shortStem : List Char := ['o', 'r', 'd', 'i', 'n', 'a', 'l']

/-- The word that long names start with. -/
def longStem : List Char := 'l' :: 'o' :: 'n' :: 'g' :: '-' :: shortStem

/-- What a name says about ordinal numbers, if it is reserved for them. -/
def ofName? (name : String) : Option OrdinalClass :=
  let cs := name.toList
  if longStem.isPrefixOf cs then
    match digits? (cs.drop longStem.length) with
    | some (some pair) => (number? pair).map long
    | _ => none
  else if shortStem.isPrefixOf cs then
    match digits? (cs.drop shortStem.length) with
    | some (some pair) => some (((number? pair).map short).getD generic)
    | some none => some generic
    | none => none
  else none

end OrdinalClass

end CitationLocale
