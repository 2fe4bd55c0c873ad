import CitationLocale.Text.CharSet
import CitationLocale.Text.LetterCase

/-!
# Comparing characters without case

Characters that differ in case only have one of them as their representative. It is the lower case,
except that a few small letters share it, such as the long s and the final sigma. The pairs are
those of Unicode 16.
-/

namespace CitationLocale.Text

/-- Small letters that share their capital with another one, each with its representative. -/
def foldingVariants : List (Char × Char) := [
  ('ſ', 's'), ('µ', 'μ'), ('\u0345', 'ι'), ('\u1FBE', 'ι'), ('\u1FD3', '\u0390'), ('ϐ', 'β'),
  ('ϵ', 'ε'), ('ϑ', 'θ'), ('ϰ', 'κ'), ('ϖ', 'π'), ('ϱ', 'ρ'), ('ς', 'σ'), ('ϕ', 'φ'),
  ('\u1FE3', '\u03B0'), ('\u1C80', '\u0432'), ('\u1C81', '\u0434'), ('\u1C82', '\u043E'),
  ('\u1C83', '\u0441'), ('\u1C84', '\u0442'), ('\u1C85', '\u0442'), ('\u1C86', '\u044A'),
  ('\u1C87', '\u0463'), ('\u1C88', '\uA64B'), ('\u1E9B', '\u1E61'), ('\uFB05', '\uFB06')]

/-- The pairs of a capital and its lower case. -/
def casePairsOf (run : CaseRun) : List (Char × Char) :=
  (List.range ((run.source.last - run.source.first) / run.source.step + 1)).map fun k =>
    (Char.ofNat (run.source.first + k * run.source.step),
      Char.ofNat (run.target + k * run.source.step))

/-- Characters that differ from others in case only, each with the representative of all of them. -/
def casePairs : List (Char × Char) :=
  loweringRuns.flatMap casePairsOf ++ foldingVariants

end CitationLocale.Text

namespace CitationLocale.CharSet

open Text

/-- The characters that are missing from a set although it has the other one of a pair. -/
def missingVariants (s : CharSet) : List Char :=
  casePairs.flatMap fun (c, d) =>
    match s.contains c, s.contains d with
    | true, false => [d]
    | false, true => [c]
    | _, _ => []

/-- Adds the missing characters to a set. -/
def addVariants (s : CharSet) : CharSet :=
  let missing := s.missingVariants
  if missing.isEmpty then s else s.union (.ofChars missing)

/-- A set with all characters that differ from one of its own in case only. The first step leads to
the representatives at least, and the second one from there to all the others. -/
def caseClosure (s : CharSet) : CharSet :=
  s.addVariants.addVariants

/-- A set that disregards case, if it is to do so. -/
def caseClosureIf (caseless : Bool) (s : CharSet) : CharSet :=
  if caseless then s.caseClosure else s

end CitationLocale.CharSet
