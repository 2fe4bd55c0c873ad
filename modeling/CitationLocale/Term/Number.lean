/-!
# Grammatical number

Whether a term is used in the singular or in the plural depends on a count, on a grammatical
number, or on an explicit request for the plural.
-/

namespace CitationLocale

inductive GrammaticalNumber where
  | singular
  | plural
deriving DecidableEq, Repr

/-- A count or a grammatical number. -/
inductive Quantity where
  | count (n : Int)
  | grammatical (number : GrammaticalNumber)
deriving DecidableEq, Repr

/-- How a term is to be rendered. -/
structure RenderOptions where
  quantity? : Option Quantity
  plural : Bool
deriving DecidableEq, Repr

/-- The spelling of a grammatical number. -/
def GrammaticalNumber.text : GrammaticalNumber → String
  | singular => "singular"
  | plural => "plural"

/-- The grammatical number with a spelling. -/
def GrammaticalNumber.ofText? (s : String) : Option GrammaticalNumber :=
  if s = "singular" then some singular
  else if s = "plural" then some plural
  else none

/-- Only the count one is singular. -/
def Quantity.isPlural : Quantity → Bool
  | count n => n != 1
  | grammatical number => number == .plural

namespace RenderOptions

/-- No wish about the number. -/
def default : RenderOptions := ⟨none, false⟩

/-- The plural, whatever the quantity. -/
def inPlural : RenderOptions := ⟨none, true⟩

/-- The number that goes with a quantity. -/
def ofQuantity (q : Quantity) : RenderOptions := ⟨some q, false⟩

/-- Whether the plural is meant. -/
def isPlural (o : RenderOptions) : Bool :=
  o.plural || o.quantity?.any Quantity.isPlural

end RenderOptions

end CitationLocale
