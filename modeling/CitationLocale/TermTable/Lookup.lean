import CitationLocale.Term.Query
import CitationLocale.TermTable.Basic

/-!
# Looking up a term

Of the terms with the wanted name the first one in the wanted form and gender is taken. A form
that is not there falls back to more general ones, the gender staying fixed; if no form in the
chain is there either, the first term with the name stands in.
-/

namespace CitationLocale

/-- What is wanted of a term besides its name. -/
structure LookupOptions where
  form? : Option TermForm
  gender? : Option Gender
  quantity? : Option Quantity
  plural : Bool
deriving DecidableEq, Repr

namespace LookupOptions

/-- No wish besides the name. -/
def default : LookupOptions := ⟨none, none, none, false⟩

/-- How the term that is found is to be rendered. -/
def rendering (o : LookupOptions) : RenderOptions :=
  ⟨o.quantity?, o.plural⟩

end LookupOptions

namespace TermTable

/-- The place of the term that fits best. -/
def lookupIndex? (table : TermTable) (name : String) (options : LookupOptions) : Option Nat := do
  let found := table.candidates fun t => t.name? == some name
  let first ← found.head?
  let inForm := fun form => found.find? fun c => c.1.fits ⟨none, some form, options.gender?⟩
  let best := ((options.form?.getD .long).fallbacks.findSome? inForm).getD first
  return best.2

/-- The term that fits best. -/
def lookup? (table : TermTable) (name : String) (options : LookupOptions) : Option Term := do
  let index ← table.lookupIndex? name options
  table.terms[index]?

/-- The text of the term that fits best, in the wanted number. -/
def render? (table : TermTable) (name : String) (options : LookupOptions) : Option String :=
  (table.lookup? name options).map fun t => t.render options.rendering

end TermTable

end CitationLocale
