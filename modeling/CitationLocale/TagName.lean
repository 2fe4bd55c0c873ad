import CitationLocale.Text.Lowering

/-!
# Tag names derived from identifiers

A node type without a tag of its own is written under the canonical form of its identifier: words
are separated by hyphens and everything is in lower case, so `StyleOptions` becomes
`style-options`.
-/

namespace CitationLocale

open Text

/-- Sets a hyphen between a small letter and a capital letter that follows it directly. -/
def hyphenate : List Char → List Char
  | c :: d :: cs =>
    if isSmallLetter c && isCapitalLetter d then
      c :: '-' :: hyphenate (d :: cs)
    else
      c :: hyphenate (d :: cs)
  | cs => cs

/-- The tag name derived from an identifier. -/
def canonicalName (ident : String) : String :=
  lower (String.ofList (hyphenate ident.toList))

end CitationLocale
