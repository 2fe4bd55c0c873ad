import CitationLocale.Error

/-!
# Escaped characters

Five characters are written as entities in text and in attribute values alike. Reading also
accepts character references by number. Faults carry byte offsets into the text that is read.
-/

namespace CitationLocale.Markup

/-- The number of bytes of a text in UTF-8. -/
def byteLength : List Char → Nat
  | [] => 0
  | c :: cs => c.utf8Size + byteLength cs

/-! ## Writing -/

/-- The written form of a character. -/
def escapeChar (c : Char) : List Char :=
  if c = '<' then ['&', 'l', 't', ';']
  else if c = '>' then ['&', 'g', 't', ';']
  else if c = '&' then ['&', 'a', 'm', 'p', ';']
  else if c = '\'' then ['&', 'a', 'p', 'o', 's', ';']
  else if c = '"' then ['&', 'q', 'u', 'o', 't', ';']
  else [c]

/-- The written form of a text. -/
def escape (cs : List Char) : List Char :=
  cs.flatMap escapeChar

/-! ## Reading -/

/-- What can be wrong with a character reference. -/
inductive ReferenceFault where
  | unexpectedSign
  | emptyNumber
  | invalidDigit
  | overflow
  | zero
  | invalidCodePoint (n : Nat)
deriving DecidableEq, Repr

/-- What can be wrong with escaped text; the offsets are those of the offending part. -/
inductive EscapeFault where
  | unterminated (start stop : Nat)
  | unknownEntity (start stop : Nat) (name : String)
  | badReference (fault : ReferenceFault)
deriving DecidableEq, Repr

/-- The message of a bad character reference. -/
def ReferenceFault.message : ReferenceFault → String
  | .unexpectedSign => "unexpected number sign"
  | .emptyNumber => "cannot parse integer from empty string"
  | .invalidDigit => "invalid digit found in string"
  | .overflow => "number too large to fit in target type"
  | .zero => "0x0 character is not permitted in XML"
  | .invalidCodePoint n => "`" ++ toString n ++ "` is not a valid codepoint"

/-- The message of badly escaped text. -/
def EscapeFault.message : EscapeFault → String
  | .unterminated start stop =>
    "Error while escaping character at range " ++ toString start ++ ".." ++ toString stop ++
      ": Cannot find ';' after '&'"
  | .unknownEntity start stop name =>
    "at " ++ toString start ++ ".." ++ toString stop ++ ": unrecognized entity `" ++ name ++ "`"
  | .badReference fault => "invalid character reference: " ++ fault.message

/-- Badly escaped text on its own, outside any document. -/
def EscapeFault.error (fault : EscapeFault) : Error :=
  .xml fault.message none

/-- The value of a digit in a base up to sixteen. -/
def digitValue? (base : Nat) (c : Char) : Option Nat :=
  let value? :=
    if '0' ≤ c ∧ c ≤ '9' then some (c.toNat - '0'.toNat)
    else if 'a' ≤ c ∧ c ≤ 'f' then some (c.toNat - 'a'.toNat + 10)
    else if 'A' ≤ c ∧ c ≤ 'F' then some (c.toNat - 'A'.toNat + 10)
    else none
  value?.filter (· < base)

/-- The numbers of a reference stay below this one, the thirty-second power of two. -/
def referenceLimit : Nat := 0x100000000

/-- Reads further digits of a number. -/
def readDigits (base acc : Nat) : List Char → Except ReferenceFault Nat
  | [] => .ok acc
  | c :: cs =>
    match digitValue? base c with
    | none => .error .invalidDigit
    | some d =>
      let n := acc * base + d
      if n < referenceLimit then readDigits base n cs else .error .overflow

/-- Reads a number without sign. -/
def readNumber (base : Nat) : List Char → Except ReferenceFault Nat
  | [] => .error .emptyNumber
  | c :: cs => if c = '+' ∨ c = '-' then .error .unexpectedSign else readDigits base 0 (c :: cs)

/-- The character that a reference names: a decimal number, or a hexadecimal one after an `x`. -/
def readReference (cs : List Char) : Except ReferenceFault Char := do
  let n ← match cs with
    | 'x' :: hex => readNumber 16 hex
    | decimal => readNumber 10 decimal
  if n = 0 then .error .zero
  else if n.isValidChar then .ok (Char.ofNat n)
  else .error (.invalidCodePoint n)

/-- The character of a named entity. -/
def namedEntity? : List Char → Option Char
  | ['l', 't'] => some '<'
  | ['g', 't'] => some '>'
  | ['a', 'm', 'p'] => some '&'
  | ['a', 'p', 'o', 's'] => some '\''
  | ['q', 'u', 'o', 't'] => some '"'
  | _ => none

/-- The character that stands between `&` and `;`, at the given offsets. -/
def readEntity (start stop : Nat) : List Char → Except EscapeFault Char
  | '#' :: number => (readReference number).mapError .badReference
  | name =>
    match namedEntity? name with
    | some c => .ok c
    | none => .error (.unknownEntity start stop (String.ofList name))

/-- The characters between `&` and the mark that ends an entity. -/
def isEntityChar (c : Char) : Bool :=
  c != '&' && c != ';'

theorem length_dropWhile_le {α : Type} (p : α → Bool) (xs : List α) :
    (xs.dropWhile p).length ≤ xs.length :=
  (List.dropWhile_suffix p).length_le

/-- Reads escaped text that starts at the offset `position` of a text of `total` bytes. -/
def unescapeFrom (total position : Nat) : List Char → Except EscapeFault (List Char)
  | [] => .ok []
  | c :: cs =>
    if c = '&' then
      match h : cs.dropWhile isEntityChar with
      | [] => .error (.unterminated position total)
      | mark :: rest =>
        if mark = ';' then do
          let name := cs.takeWhile isEntityChar
          let stop := position + 1 + byteLength name
          let d ← readEntity (position + 1) stop name
          let decoded ← unescapeFrom total (stop + 1) rest
          return d :: decoded
        else .error (.unterminated position total)
    else do
      let decoded ← unescapeFrom total (position + c.utf8Size) cs
      return c :: decoded
termination_by cs => cs.length
decreasing_by
  · have := length_dropWhile_le isEntityChar cs
    simp [h] at this ⊢
    omega
  · simp

/-- The text that an escaped text stands for. -/
def unescape (cs : List Char) : Except EscapeFault (List Char) :=
  unescapeFrom (byteLength cs) 0 cs

/-! ## Reading undoes writing -/

/-- Reading a complete entity. -/
theorem unescapeFrom_entity (total position : Nat) {name : List Char}
    (hname : name.all isEntityChar = true) (rest : List Char) :
    unescapeFrom total position ('&' :: (name ++ ';' :: rest)) =
      (do
        let stop := position + 1 + byteLength name
        let d ← readEntity (position + 1) stop name
        let decoded ← unescapeFrom total (stop + 1) rest
        return d :: decoded) := by
  have hall : ∀ c ∈ name, isEntityChar c = true := List.all_eq_true.1 hname
  have hdrop : (name ++ ';' :: rest).dropWhile isEntityChar = ';' :: rest := by
    rw [List.dropWhile_append_of_pos hall]
    simp [isEntityChar]
  have htake : (name ++ ';' :: rest).takeWhile isEntityChar = name := by
    rw [List.takeWhile_append_of_pos hall]
    simp [isEntityChar]
  rw [unescapeFrom]
  simp only [if_true]
  split
  · next h => simp [hdrop] at h
  · next mark after h =>
    rw [hdrop] at h
    injection h with hmark hafter
    subst hmark hafter
    simp only [if_true, htake]

/-- Reading a character that stands for itself. -/
theorem unescapeFrom_cons (total position : Nat) {c : Char} (hc : c ≠ '&') (cs : List Char) :
    unescapeFrom total position (c :: cs) =
      (do
        let decoded ← unescapeFrom total (position + c.utf8Size) cs
        return c :: decoded) := by
  rw [unescapeFrom]
  simp only [if_neg hc]

theorem unescapeFrom_escape (total position : Nat) (cs : List Char) :
    unescapeFrom total position (escape cs) = .ok cs := by
  induction cs generalizing position with
  | nil => simp [escape, unescapeFrom]
  | cons c cs ih =>
    have hcons : escape (c :: cs) = escapeChar c ++ escape cs := rfl
    rw [hcons]
    have hentity (name : List Char) (hname : name.all isEntityChar = true)
        (hchar : namedEntity? name = some c) (hhash : name.head? ≠ some '#') :
        unescapeFrom total position ('&' :: (name ++ ';' :: escape cs)) = .ok (c :: cs) := by
      rw [unescapeFrom_entity total position hname]
      have hread (start stop : Nat) : readEntity start stop name = .ok c := by
        unfold readEntity
        split
        · simp at hhash
        · rw [hchar]
      simp only [hread, ih]
      rfl
    by_cases hlt : c = '<'
    · subst hlt; exact hentity ['l', 't'] (by decide) rfl (by decide)
    by_cases hgt : c = '>'
    · subst hgt; exact hentity ['g', 't'] (by decide) rfl (by decide)
    by_cases hamp : c = '&'
    · subst hamp; exact hentity ['a', 'm', 'p'] (by decide) rfl (by decide)
    by_cases hapos : c = '\''
    · subst hapos; exact hentity ['a', 'p', 'o', 's'] (by decide) rfl (by decide)
    by_cases hquot : c = '"'
    · subst hquot; exact hentity ['q', 'u', 'o', 't'] (by decide) rfl (by decide)
    have hplain : escapeChar c = [c] := by simp [escapeChar, hlt, hgt, hamp, hapos, hquot]
    rw [hplain, List.singleton_append, unescapeFrom_cons total position hamp, ih]
    rfl

/-- What is written for a text is read as that text. -/
theorem unescape_escape (cs : List Char) : unescape (escape cs) = .ok cs :=
  unescapeFrom_escape _ _ cs

end CitationLocale.Markup
