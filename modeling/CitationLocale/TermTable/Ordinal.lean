import CitationLocale.TermTable.Basic

/-!
# Endings of ordinal numbers

The ending of an ordinal number depends on its last two digits, then on its last digit, and is
the general one otherwise. A term can ask for more digits to match than its name has. Only the
size of a number counts, not its sign.
-/

namespace CitationLocale

/-- A number below one hundred in two digits. -/
def twoDigits (n : Nat) : String :=
  String.ofList [Nat.digitChar (n / 10), Nat.digitChar (n % 10)]

namespace TermTable

/-- The place of the best ordinal term with a name among those whose match rule is accepted: one
for the wanted gender, else one for no gender in particular, else the first. -/
def ordinalNamed? (table : TermTable) (name : String) (gender? : Option Gender)
    (accepts : Option OrdinalMatch → Bool) : Option Nat :=
  let found := table.candidates fun t => t.name? == some name && accepts t.ordinalMatch?
  let best? :=
    ((found.find? fun c => c.1.genderForm? == gender?).or
      (found.find? fun c => c.1.genderForm? == none)).or found.head?
  best?.map fun c => c.2

/-- The rules under which a term for the last two digits is used. -/
def acceptsLastTwo (n : Nat) (rule? : Option OrdinalMatch) : Bool :=
  rule? != some .wholeNumber || n == n % 100

/-- The rules under which a term for the last digit is used. -/
def acceptsLast (n : Nat) (rule? : Option OrdinalMatch) : Bool :=
  match rule? with
  | some .wholeNumber => n == n % 10
  | some .lastTwoDigits => false
  | _ => true

/-- The place of the ending for an ordinal number and the gender of the word it goes with. -/
def ordinalIndex? (table : TermTable) (number : Int) (gender? : Option Gender) : Option Nat :=
  let n := number.natAbs
  ((table.ordinalNamed? ("ordinal-" ++ twoDigits (n % 100)) gender? (acceptsLastTwo n)).or
    (table.ordinalNamed? ("ordinal-" ++ twoDigits (n % 10)) gender? (acceptsLast n))).or
      (table.ordinalNamed? "ordinal" gender? fun _ => true)

/-- The place of the word for an ordinal number, or of its ending if there is no word. -/
def longOrdinalIndex? (table : TermTable) (number : Int) : Option Nat :=
  let n := number.natAbs
  (table.ordinalNamed? ("long-ordinal-" ++ twoDigits (n % 100)) none (acceptsLastTwo n)).or
    (table.ordinalIndex? number none)

/-- The ending for an ordinal number. -/
def ordinalize? (table : TermTable) (number : Int) (gender? : Option Gender) : Option Term := do
  let index ← table.ordinalIndex? number gender?
  table.terms[index]?

/-- The word for an ordinal number, or its ending. -/
def longOrdinalize? (table : TermTable) (number : Int) : Option Term := do
  let index ← table.longOrdinalIndex? number
  table.terms[index]?

end TermTable

end CitationLocale
