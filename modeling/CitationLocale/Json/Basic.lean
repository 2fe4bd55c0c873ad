import CitationLocale.Decimal.Basic

/-!
# JSON values

Values from outside a locale file come as JSON: attribute records to merge and options of a
lookup. Members of an object are visited in the order of their keys by code point; of several
members with one key the last one counts.
-/

namespace CitationLocale

/-- An integer of 64 bits, signed or unsigned, or a number of double precision. -/
inductive JsonNumber where
  | integer (i : Int)
  | double (x : Dyadic)
deriving DecidableEq, Repr

inductive Json where
  | null
  | bool (b : Bool)
  | number (n : JsonNumber)
  | string (s : String)
  | array (items : List Json)
  | object (members : List (String × Json))
deriving Inhabited

/-- The greatest signed number of 64 bits has this successor. -/
def signedLimit : Nat := 0x8000000000000000

/-- A whole number as JSON. -/
def Json.ofInt (i : Int) : Json :=
  .number (.integer i)

/-- Puts a member at its place among members in key order, replacing one with the same key. -/
def insertByKey {α : Type} (key : String) (value : α) : List (String × α) → List (String × α)
  | [] => [(key, value)]
  | (k, v) :: members =>
    if key < k then (key, value) :: (k, v) :: members
    else if key = k then (key, value) :: members
    else (k, v) :: insertByKey key value members

/-- Members in key order. -/
def inKeyOrder {α : Type} (members : List (String × α)) : List (String × α) :=
  members.foldl (fun sorted m => insertByKey m.1 m.2 sorted) []

/-- The name of the kind of a value. -/
def Json.kindName : Json → String
  | .null => "null"
  | .bool _ => "boolean"
  | .number _ => "number"
  | .string _ => "string"
  | .array _ => "array"
  | .object _ => "object"

end CitationLocale
