import CitationLocale.Attributes.Basic
import CitationLocale.Error
import CitationLocale.Json.Compact

/-!
# Assigning many values at once

Values come from pairs, from another record or from a JSON object. All three set one attribute
after the other, and names for which the record has no place are passed over.
-/

namespace CitationLocale.Attributes

/-- Sets the given pairs in order. -/
def extend (r : Attributes) (pairs : List (String × String)) : Attributes :=
  pairs.foldl (fun r p => r.set p.1 p.2) r

/-- The open record of some pairs. -/
def ofPairs (pairs : List (String × String)) : Attributes :=
  empty.extend pairs

/-- Sets every attribute that has a value in another record. -/
def merge (r other : Attributes) : Attributes :=
  r.extend other.assigned

/-- The text under which a JSON value is stored: a string as it is, any other value in its
compact spelling, and null not at all. -/
def storedText? : Json → Option String
  | .null => none
  | .string s => some s
  | j => some j.compact

/-- The pairs that the members of a JSON object stand for, in key order. -/
def storedPairs (members : List (String × Json)) : List (String × String) :=
  (inKeyOrder members).filterMap fun m => (storedText? m.2).map fun text => (m.1, text)

/-- Sets the members of a JSON object; no other JSON value can be merged. -/
def mergeJson (r : Attributes) : Json → Except Error Attributes
  | .object members => .ok (r.extend (storedPairs members))
  | other => .error (.mergeType other.kindName)

end CitationLocale.Attributes
