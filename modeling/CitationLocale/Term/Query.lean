import CitationLocale.Pattern.Basic
import CitationLocale.Term.Basic

/-!
# Queries on terms

A query asks for terms with a name, a form and a gender; what it leaves open matches any term. A
match is exact if the query asks for a gender.
-/

namespace CitationLocale

/-- A name, or a pattern that occurs in the name. -/
inductive NameMatcher where
  | exact (name : String)
  | pattern (p : Pattern)
deriving DecidableEq, Repr

structure TermQuery where
  name? : Option NameMatcher
  form? : Option TermForm
  gender? : Option Gender
deriving DecidableEq, Repr

/-- Whether a name is the wanted one. -/
def NameMatcher.holds : NameMatcher → String → Bool
  | exact name, s => name == s
  | pattern p, s => p.occursIn s

namespace Term

/-- Whether a term fits a query. -/
def fits (t : Term) (q : TermQuery) : Bool :=
  (match q.name? with
    | some matcher => t.name?.any matcher.holds
    | none => true) &&
  (match q.form? with
    | some form => t.form? == some form
    | none => true) &&
  (match q.gender? with
    | some gender => t.gender == gender
    | none => true)

/-- Whether a term fits a query that asks for a gender. -/
def fitsExactly (t : Term) (q : TermQuery) : Bool :=
  q.gender?.isSome && t.fits q

end Term

end CitationLocale
