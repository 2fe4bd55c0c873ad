import CitationLocale.Term.Basic

/-!
# Term tables

The terms of a locale in document order. Several terms may share a name. The schema of a table has
no attribute, so the record of a new table is empty and takes no value.
-/

namespace CitationLocale

structure TermTable where
  attributes : Attributes
  terms : List Term
deriving DecidableEq, Repr

namespace TermTable

/-- The table of some terms with the record of a new table. -/
def ofTerms (terms : List Term) : TermTable :=
  ⟨.blank (NodeType.builtin .terms).schema, terms⟩

@[simp] theorem terms_ofTerms (terms : List Term) : (ofTerms terms).terms = terms := rfl

/-- The table without terms. -/
def empty : TermTable := ofTerms []

/-- Appends a term. -/
def push (table : TermTable) (t : Term) : TermTable :=
  { table with terms := table.terms ++ [t] }

/-- The number of terms. -/
def size (table : TermTable) : Nat :=
  table.terms.length

/-- Whether there are no terms. -/
def isEmpty (table : TermTable) : Bool :=
  table.terms.isEmpty

/-- The terms that pass a test, with their places. -/
def candidates (table : TermTable) (test : Term → Bool) : List (Term × Nat) :=
  table.terms.zipIdx.filter fun c => test c.1

end TermTable

end CitationLocale
