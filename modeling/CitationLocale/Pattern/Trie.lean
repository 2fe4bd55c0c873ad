/-!
# Tries of byte texts

A choice between fixed texts is read as a trie, in which texts share their beginnings. The order of
the texts matters where one is a beginning of another: what comes after the shorter one is kept
apart from what comes before it. A trie is the list of its branches with a stop at each place where
a text ends.
-/

namespace CitationLocale

inductive Trie where
  | nil
  | branch (byte : Nat) (below next : Trie)
  | stop (next : Trie)
deriving DecidableEq, Repr

namespace Trie

/-- Whether no branch leaves the trie. -/
def isLeaf : Trie → Bool
  | nil => true
  | branch _ _ _ => false
  | stop next => next.isLeaf

/-- Whether a text ends in the trie itself. -/
def hasStop : Trie → Bool
  | nil => false
  | branch _ _ next => next.hasStop
  | stop _ => true

/-- Appends a stop. -/
def appendStop : Trie → Trie
  | nil => stop nil
  | branch byte below next => branch byte below next.appendStop
  | stop next => stop next.appendStop

/-- Marks the end of a text after all branches so far. A trie without branches is marked once. -/
def addStop (t : Trie) : Trie :=
  if t.isLeaf && t.hasStop then t else t.appendStop

/-- Changes what is below a byte among the branches after the last stop, which are ordered by their
bytes. -/
def adjust (byte : Nat) (f : Trie → Trie) : Trie → Trie
  | nil => branch byte (f nil) nil
  | stop next => stop (next.adjust byte f)
  | branch b below next =>
    if next.hasStop ∨ b < byte then branch b below (next.adjust byte f)
    else if b = byte then branch b (f below) next
    else branch byte (f nil) (branch b below next)

/-- Adds a text. -/
def insert : List Nat → Trie → Trie
  | [], t => t.addStop
  | byte :: bytes, t => t.adjust byte (insert bytes)

/-- The trie of some texts. -/
def ofTexts (texts : List (List Nat)) : Trie :=
  texts.foldl (fun t text => t.insert text) nil

end Trie

end CitationLocale
