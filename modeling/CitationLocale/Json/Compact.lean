import CitationLocale.Decimal.Layout
import CitationLocale.Decimal.Shortest
import CitationLocale.Json.Basic

/-!
# The compact spelling of JSON

Values are written without spaces and with sorted keys. A string escapes quotes, backslashes and
control characters only. An integer is written as such, a number of double precision with the
fewest digits that read back.
-/

namespace CitationLocale

namespace Json

/-- Numbers from `0.00001` up to sixteen digits before the point are written in full. -/
def numberLayout : DecimalLayout := ⟨-5, 15⟩

/-- The two lower digits of a code point in base sixteen. -/
def hexPair (n : Nat) : List Char :=
  [Nat.digitChar (n / 16 % 16), Nat.digitChar (n % 16)]

/-- A character inside a string. -/
def escapeChar (c : Char) : List Char :=
  if c = '"' then ['\\', '"']
  else if c = '\\' then ['\\', '\\']
  else if c = '\x08' then ['\\', 'b']
  else if c = '\t' then ['\\', 't']
  else if c = '\n' then ['\\', 'n']
  else if c = '\x0C' then ['\\', 'f']
  else if c = '\r' then ['\\', 'r']
  else if c.toNat < 0x20 then '\\' :: 'u' :: '0' :: '0' :: hexPair c.toNat
  else [c]

/-- A string between quotes. -/
def quote (s : String) : List Char :=
  '"' :: s.toList.flatMap escapeChar ++ ['"']

/-- A number. -/
def numberText : JsonNumber → List Char
  | .integer i => if i < 0 then '-' :: digitText i.natAbs else digitText i.natAbs
  | .double x => numberLayout.text x.shortest

/-- Pieces of text with commas between them. -/
def commaSeparated : List (List Char) → List Char
  | [] => []
  | [piece] => piece
  | piece :: pieces => piece ++ ',' :: commaSeparated pieces

mutual

/-- The compact spelling as characters. -/
def chars : Json → List Char
  | .null => ['n', 'u', 'l', 'l']
  | .bool true => ['t', 'r', 'u', 'e']
  | .bool false => ['f', 'a', 'l', 's', 'e']
  | .number n => numberText n
  | .string s => quote s
  | .array items => '[' :: commaSeparated (itemChars items) ++ [']']
  | .object members =>
    let spelled := (inKeyOrder (memberChars members)).map fun m => quote m.1 ++ ':' :: m.2
    '\x7b' :: commaSeparated spelled ++ ['\x7d']

/-- The spelling of each item. -/
def itemChars : List Json → List (List Char)
  | [] => []
  | item :: items => chars item :: itemChars items

/-- The spelling of each member's value, with its key. -/
def memberChars : List (String × Json) → List (String × List Char)
  | [] => []
  | (key, value) :: members => (key, chars value) :: memberChars members

end

/-- The compact spelling of a value. -/
def compact (j : Json) : String :=
  String.ofList j.chars

end Json

end CitationLocale
