import CitationLocale.Json.Basic
import CitationLocale.TermTable.Lookup

/-!
# Options given as JSON

A choice is the string that spells it, or an object whose only member has that key and the value
null. Options with several fields are an object, in which fields may be missing and others are
passed over, or an array of the fields in their order, of which the last ones may be missing.
-/

namespace CitationLocale

namespace Json

/-- The spelling of a choice. -/
def choice? : Json → Option String
  | .string s => some s
  | .object members =>
    match inKeyOrder members with
    | [(key, .null)] => some key
    | _ => none
  | _ => none

/-- The values of some fields. -/
def fields? (names : List String) : Json → Option (List (Option Json))
  | .object members => some (names.map fun name => (inKeyOrder members).lookup name)
  | .array items =>
    if items.length ≤ names.length then
      some ((List.range names.length).map fun i => items[i]?)
    else none
  | _ => none

/-- The value of a field that may be missing or null. -/
def optional? {α : Type} (read : Json → Option α) : Option Json → Option (Option α)
  | none => some none
  | some .null => some none
  | some j => (read j).map some

/-- The value of a field that is false if it is missing. -/
def flag? : Option Json → Option Bool
  | none => some false
  | some (.bool b) => some b
  | some _ => none

/-- A whole number of signed 64 bits. -/
def count? : Json → Option Int
  | .number (.integer i) => if -signedLimit ≤ i ∧ i < signedLimit then some i else none
  | _ => none

end Json

/-- The form that a JSON value stands for. -/
def TermForm.ofJson? (j : Json) : Option TermForm :=
  j.choice?.bind TermForm.ofText?

/-- The gender that a JSON value stands for. -/
def Gender.ofJson? (j : Json) : Option Gender :=
  j.choice?.bind Gender.ofText?

/-- The match rule that a JSON value stands for. -/
def OrdinalMatch.ofJson? (j : Json) : Option OrdinalMatch :=
  j.choice?.bind OrdinalMatch.ofText?

/-- The grammatical number that a JSON value stands for. -/
def GrammaticalNumber.ofJson? (j : Json) : Option GrammaticalNumber :=
  j.choice?.bind GrammaticalNumber.ofText?

/-- The count or grammatical number that a JSON value stands for. -/
def Quantity.ofJson? (j : Json) : Option Quantity :=
  match j.count? with
  | some n => some (.count n)
  | none => (GrammaticalNumber.ofJson? j).map .grammatical

/-- The options of a lookup that a JSON value stands for. -/
def LookupOptions.ofJson? (j : Json) : Option LookupOptions := do
  match ← j.fields? ["form", "gender", "number", "plural"] with
  | [form, gender, number, plural] =>
    let form? ← Json.optional? TermForm.ofJson? form
    let gender? ← Json.optional? Gender.ofJson? gender
    let quantity? ← Json.optional? Quantity.ofJson? number
    let plural ← Json.flag? plural
    return ⟨form?, gender?, quantity?, plural⟩
  | _ => none

/-- The options of rendering that a JSON value stands for. -/
def RenderOptions.ofJson? (j : Json) : Option RenderOptions := do
  match ← j.fields? ["number", "plural"] with
  | [number, plural] =>
    let quantity? ← Json.optional? Quantity.ofJson? number
    let plural ← Json.flag? plural
    return ⟨quantity?, plural⟩
  | _ => none

end CitationLocale
