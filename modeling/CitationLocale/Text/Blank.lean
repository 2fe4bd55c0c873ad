import CitationLocale.Text.CodeRange

/-!
# Blank text

Two notions of white space meet in a locale file. The markup itself knows four characters only:
space, tab, carriage return and line feed. The content rules of nodes ignore text made of any
characters with the Unicode property `White_Space`, the no-break space among them.
-/

namespace CitationLocale.Text

/-- The characters with the Unicode property `White_Space`. -/
def whiteRanges : List CodeRange := [
  ⟨0x9, 0xD, 1⟩, ⟨0x20, 0x20, 1⟩, ⟨0x85, 0x85, 1⟩, ⟨0xA0, 0xA0, 1⟩, ⟨0x1680, 0x1680, 1⟩,
  ⟨0x2000, 0x200A, 1⟩, ⟨0x2028, 0x2029, 1⟩, ⟨0x202F, 0x202F, 1⟩, ⟨0x205F, 0x205F, 1⟩,
  ⟨0x3000, 0x3000, 1⟩]

/-- White space for the content rules of nodes. -/
def isWhite (c : Char) : Bool :=
  inRanges whiteRanges c

/-- Text that is empty or made of white space only. -/
def isBlank (s : String) : Bool :=
  s.toList.all isWhite

/-- White space inside the markup. -/
def isMarkupSpace (c : Char) : Bool :=
  c == ' ' || c == '\t' || c == '\n' || c == '\r'

theorem isBlank_append (s t : String) : isBlank (s ++ t) = (isBlank s && isBlank t) := by
  simp [isBlank, String.toList_append]

end CitationLocale.Text
