import CitationLocale.Text.Blank
import CitationLocale.Text.DecimalDigit

/-!
# Sets of characters

A set of characters is kept as its spans of code points in increasing order, with a gap between
any two. The operations on sets keep this form, so that equal sets have equal spans.
-/

namespace CitationLocale

open Text

/-- The code points from `first` to `last`. -/
structure Span where
  first : Nat
  last : Nat
deriving DecidableEq, Repr

structure CharSet where
  spans : List Span
deriving DecidableEq, Repr

namespace CharSet

/-- Adds a span to spans that do not begin after it, the last of them first. -/
def addSpan (spans : List Span) (s : Span) : List Span :=
  match spans with
  | t :: rest =>
    if s.first ≤ t.last + 1 then ⟨t.first, max t.last s.last⟩ :: rest else s :: t :: rest
  | [] => [s]

/-- The union of some spans. -/
def ofSpans (spans : List Span) : CharSet :=
  ⟨((spans.mergeSort fun s t => s.first ≤ t.first).foldl addSpan []).reverse⟩

/-- The set without characters. -/
def empty : CharSet :=
  ⟨[]⟩

/-- The set of one character. -/
def single (c : Char) : CharSet :=
  ⟨[⟨c.toNat, c.toNat⟩]⟩

/-- The set of some characters. -/
def ofChars (cs : List Char) : CharSet :=
  ofSpans (cs.map fun c => ⟨c.toNat, c.toNat⟩)

/-- The characters between two characters, of which the first is not greater. -/
def range (low high : Char) : CharSet :=
  ⟨[⟨low.toNat, high.toNat⟩]⟩

/-- The union of some ranges. -/
def ofRanges (bounds : List (Char × Char)) : CharSet :=
  ofSpans (bounds.map fun b => ⟨b.1.toNat, b.2.toNat⟩)

/-- The decimal digits of all scripts. -/
def digit : CharSet :=
  ofSpans (digitZeros.map fun z => ⟨z, z + 9⟩)

/-- The characters with the Unicode property `White_Space`. -/
def white : CharSet :=
  ofSpans (whiteRanges.map fun r => ⟨r.first, r.last⟩)

/-- Whether the set contains a character. -/
def contains (s : CharSet) (c : Char) : Bool :=
  s.spans.any fun t => t.first ≤ c.toNat && c.toNat ≤ t.last

/-- The only character of a set of one. -/
def single? (s : CharSet) : Option Char :=
  match s.spans with
  | [t] => if t.first = t.last then some (Char.ofNat t.first) else none
  | _ => none

/-- Whether all characters are ASCII. -/
def isAscii (s : CharSet) : Bool :=
  s.spans.all fun t => t.last < 0x80

/-- The union of two sets. -/
def union (s t : CharSet) : CharSet :=
  ofSpans (s.spans ++ t.spans)

/-- The span from one code point to before another. No span begins or ends at a surrogate, since
surrogates are not characters. -/
def spanBefore (first stop : Nat) : List Span :=
  let first := if 0xD800 ≤ first ∧ first < 0xE000 then 0xE000 else first
  let stop := if 0xD800 < stop ∧ stop ≤ 0xE000 then 0xD800 else stop
  if first < stop then [⟨first, stop - 1⟩] else []

/-- The gaps between spans, from a code point on. -/
def gapsFrom (start : Nat) : List Span → List Span
  | [] => spanBefore start 0x110000
  | s :: rest => spanBefore start s.first ++ gapsFrom (s.last + 1) rest

/-- The characters that do not belong to a set. -/
def complement (s : CharSet) : CharSet :=
  ⟨gapsFrom 0 s.spans⟩

/-- The set, or its complement if it is negated. -/
def complementIf (negated : Bool) (s : CharSet) : CharSet :=
  if negated then s.complement else s

/-- The characters that belong to both sets. -/
def intersection (s t : CharSet) : CharSet :=
  (s.complement.union t.complement).complement

/-- The characters that belong to the first set only. -/
def difference (s t : CharSet) : CharSet :=
  s.intersection t.complement

/-- The characters that belong to one of the sets only. -/
def exclusive (s t : CharSet) : CharSet :=
  (s.difference t).union (t.difference s)

end CharSet

end CitationLocale
