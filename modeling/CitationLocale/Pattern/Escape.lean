import CitationLocale.Text.CharSet

/-!
# Escapes in patterns

A backslash takes the meaning from punctuation and gives one to letters: `\d` and `\s` are the
digits and white space, their capitals the complements, `\A` and `\z` the ends of the text, and
some letters write control characters. A character may also be written by its hexadecimal code.
-/

namespace CitationLocale.Pattern

/-- What an escape stands for. -/
inductive Escape where
  | char (c : Char)
  | set (s : CharSet)
  | textStart
  | textEnd
deriving DecidableEq, Repr

/-- The value of a hexadecimal digit. -/
def hexDigit? (c : Char) : Option Nat :=
  if '0' ≤ c ∧ c ≤ '9' then some (c.toNat - '0'.toNat)
  else if 'a' ≤ c ∧ c ≤ 'f' then some (c.toNat - 'a'.toNat + 10)
  else if 'A' ≤ c ∧ c ≤ 'F' then some (c.toNat - 'A'.toNat + 10)
  else none

/-- The character with a hexadecimal code. -/
def charOfHex? (cs : List Char) : Option Char := do
  let digits ← cs.mapM hexDigit?
  let code := digits.foldl (fun n d => 16 * n + d) 0
  if !digits.isEmpty && (code < 0xD800 || 0xDFFF < code && code < 0x110000) then
    some (Char.ofNat code)
  else none

/-- Reads the code of a character, which has a fixed number of digits or stands in braces. -/
def readHex (width : Nat) : List Char → Option (Escape × List Char)
  | '\x7b' :: cs =>
    match cs.dropWhile (· != '\x7d') with
    | _ :: rest => (charOfHex? (cs.takeWhile (· != '\x7d'))).map (.char ·, rest)
    | [] => none
  | cs =>
    if cs.length < width then none
    else (charOfHex? (cs.take width)).map (.char ·, cs.drop width)

/-- Whether a character with a backslash before it stands for itself. -/
def isEscapable (c : Char) : Bool :=
  c.toNat < 0x80 && !c.isAlphanum && c != '<' && c != '>'

/-- The escapes of one letter. -/
def letterEscapes : List (Char × Escape) := [
  ('d', .set .digit), ('D', .set (.complement .digit)), ('s', .set .white),
  ('S', .set (.complement .white)), ('A', .textStart), ('z', .textEnd), ('a', .char '\x07'),
  ('f', .char '\x0c'), ('t', .char '\t'), ('n', .char '\n'), ('r', .char '\r'),
  ('v', .char '\x0b')]

/-- Reads an escape, given what follows the backslash. -/
def readEscape : List Char → Option (Escape × List Char)
  | 'x' :: cs => readHex 2 cs
  | 'u' :: cs => readHex 4 cs
  | 'U' :: cs => readHex 8 cs
  | c :: cs =>
    if isEscapable c then some (.char c, cs) else (letterEscapes.lookup c).map (·, cs)
  | [] => none

end CitationLocale.Pattern
