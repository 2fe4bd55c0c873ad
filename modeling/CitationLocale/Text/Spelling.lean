import CitationLocale.Text.CharSet

/-!
# How sets of characters are spelled in UTF-8

The code points of a span have spellings of different lengths and with different bytes. They are
split into groups in which the bytes at each place vary on their own: a group is written as one
span of bytes for each place. The groups are as few as possible and come in increasing order.
-/

namespace CitationLocale

/-- The bytes from `first` to `last`. -/
structure ByteSpan where
  first : Nat
  last : Nat
deriving DecidableEq, Repr

/-- A group of spellings: the spans that its bytes are taken from, in order. -/
abbrev Spelling := List ByteSpan

namespace Spelling

/-- The numbers from `low` to `high` in base 64, with a fixed number of digits after the leading
one. -/
def ofNumbers : Nat → Nat → Nat → List Spelling
  | 0, low, high => [[⟨low, high⟩]]
  | rest + 1, low, high =>
    let unit := Nat.pow 64 (rest + 1)
    let leadingLow := low / unit
    let leadingHigh := high / unit
    if leadingLow = leadingHigh then
      (ofNumbers rest (low % unit) (high % unit)).map (⟨leadingLow, leadingLow⟩ :: ·)
    else
      let startsWhole := low % unit == 0
      let endsWhole := high % unit == unit - 1
      let start := if startsWhole then [] else
        (ofNumbers rest (low % unit) (unit - 1)).map (⟨leadingLow, leadingLow⟩ :: ·)
      let stop := if endsWhole then [] else
        (ofNumbers rest 0 (high % unit)).map (⟨leadingHigh, leadingHigh⟩ :: ·)
      let first := if startsWhole then leadingLow else leadingLow + 1
      let last := if endsWhole then leadingHigh else leadingHigh - 1
      let middle := if first ≤ last then
          [⟨first, last⟩ :: List.replicate (rest + 1) ⟨0, 63⟩]
        else []
      start ++ middle ++ stop

/-- A form of UTF-8: the code points that take it, the number of bytes after the leading one, and
the mark of the leading byte. -/
structure Form where
  first : Nat
  last : Nat
  more : Nat
  mark : Nat
deriving DecidableEq, Repr

/-- The forms of UTF-8. The code points between `0xD800` and `0xDFFF` have none. -/
def forms : List Form := [
  ⟨0, 0x7F, 0, 0⟩, ⟨0x80, 0x7FF, 1, 0xC0⟩, ⟨0x800, 0xD7FF, 2, 0xE0⟩, ⟨0xE000, 0xFFFF, 2, 0xE0⟩,
  ⟨0x10000, 0x10FFFF, 3, 0xF0⟩]

/-- The bytes that digits in base 64 stand for in a form. -/
def ofDigits (f : Form) : Spelling → Spelling
  | [] => []
  | b :: rest =>
    ⟨f.mark + b.first, f.mark + b.last⟩ :: rest.map fun b => ⟨0x80 + b.first, 0x80 + b.last⟩

/-- The spellings of a span of code points. -/
def ofSpan (s : Span) : List Spelling :=
  forms.flatMap fun f =>
    let first := max s.first f.first
    let last := min s.last f.last
    if first ≤ last then (ofNumbers f.more first last).map (ofDigits f) else []

end Spelling

/-- The spellings of the characters of a set. -/
def CharSet.spellings (s : CharSet) : List Spelling :=
  s.spans.flatMap Spelling.ofSpan

end CitationLocale
