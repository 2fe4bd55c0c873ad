import CitationLocale.Attributes.Basic

/-!
# Selecting values of a record

Values are picked by place, by a range of places or by name. A place below zero counts from the
end; a place outside the record yields no value, a range is cut to the record.
-/

namespace CitationLocale

inductive Selector where
  | index (i : Int)
  | range (start stop : Nat)
  | key (k : String)
deriving DecidableEq, Repr

namespace Attributes

/-- The value at a place. -/
def valueAt (r : Attributes) (i : Int) : Option String :=
  let place := if i < 0 then r.size + i else i
  if place < 0 then none else (r.toList[place.toNat]?).join

/-- The values that one selector picks. -/
def select (r : Attributes) : Selector → List (Option String)
  | .index i => [r.valueAt i]
  | .range start stop => (r.toList.take stop).drop start
  | .key k => [r.get? k]

/-- The values that some selectors pick, one selector after the other. -/
def valuesAt (r : Attributes) (selectors : List Selector) : List (Option String) :=
  selectors.flatMap r.select

end Attributes

end CitationLocale
