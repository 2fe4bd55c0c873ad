import CitationLocale.Document.Builder

/-!
# Reading documents

A document is read into the tree of its root element. Of several errors the first one in the
document is reported.
-/

namespace CitationLocale

open Markup

/-- Reads a document whose node types are those of a registry. -/
def Node.parseWith (r : Registry) (document : String) : Except Error Node := do
  let read := scan document
  let builder ← read.tokens.foldlM (Builder.step r) .empty
  match read.fault? with
  | some fault => .error fault.error
  | none => builder.finish

/-- Reads a document with the built-in node types. -/
def Node.parse (document : String) : Except Error Node :=
  Node.parseWith .builtins document

/-- Reads a document whose root is a term. -/
def Term.parse (document : String) : Except Error Term := do
  match ← Node.parse document with
  | .term t => .ok t
  | other => .error (.invalidRootElement "term" other.name)

/-- Reads a document whose root is a term table. -/
def TermTable.parse (document : String) : Except Error TermTable := do
  match ← Node.parse document with
  | .terms table => .ok table
  | other => .error (.invalidRootElement "terms" other.name)

end CitationLocale
