/-!
# Errors

Everything that can be wrong with a document or with an edit of a tree, and the message that a
user sees.
-/

namespace CitationLocale

inductive Error where
  /-- Only an object can be merged into a record of attributes. -/
  | mergeType (found : String)
  /-- A node does not admit this child. -/
  | invalidChild (parent child : String)
  /-- The text is no value of the attribute. -/
  | invalidAttributeValue (name value expected : String)
  /-- The markup is not well formed; `position` counts bytes. -/
  | xml (message : String) (position : Option Nat)
  /-- The document ends inside an element. -/
  | unexpectedEof (expected : String)
  /-- An end tag closes nothing. -/
  | unexpectedEndTag (found : String)
  /-- An end tag closes another node than the innermost one. -/
  | mismatchedEndTag (expected found : String)
  /-- The document has no root element. -/
  | emptyDocument
  /-- The document has more than one root element. -/
  | multipleRoots
  /-- The root is not the expected element. -/
  | invalidRootElement (expected found : String)
deriving DecidableEq, Repr

/-- The message of an error. -/
def Error.message : Error → String
  | .mergeType found => "failed to merge " ++ found ++ " into attributes"
  | .invalidChild parent child => "<" ++ parent ++ "> cannot contain " ++ child
  | .invalidAttributeValue name value expected =>
    "Invalid value '" ++ value ++ "' for attribute '" ++ name ++ "': expected " ++ expected
  | .xml message _ => "XML syntax error: " ++ message
  | .unexpectedEof expected => "Unexpected end of input, expected " ++ expected
  | .unexpectedEndTag found => "Unexpected closing tag </" ++ found ++ ">"
  | .mismatchedEndTag expected found =>
    "Mismatched end tag: expected </" ++ expected ++ ">, found </" ++ found ++ ">"
  | .emptyDocument => "Empty XML document: no root element found"
  | .multipleRoots => "Invalid XML: multiple root elements"
  | .invalidRootElement expected found =>
    "Expected <" ++ expected ++ "> root element, found <" ++ found ++ ">"

end CitationLocale
