import CitationLocale.Markup.Piece
import CitationLocale.Markup.Tag

/-!
# Tokens of a document

Reading a document yields tokens with decoded names, values and texts, up to its end or up to the
first fault. Close tags have to match the open ones. A fault knows where it lies, in bytes from
the start of the document; a byte order mark at the start does not count.
-/

namespace CitationLocale.Markup

open Text

/-- A decoded piece of a document. An aside is a comment, a processing instruction or a
declaration: it says nothing about the tree. -/
inductive Token where
  | start (name : String) (attributes : List (String × String))
  | empty (name : String) (attributes : List (String × String))
  | close (name : String)
  | text (content : String)
  | cdata (content : String)
  | aside
deriving DecidableEq, Repr

/-- Why a document cannot be read further. -/
inductive Fault where
  | cut (fault : CutFault) (position : Nat)
  | missingDoctypeName (position : Nat)
  | unmatchedClose (name : String) (position : Nat)
  | mismatchedClose (expected found : String) (position : Nat)
  | form (fault : AttributeFault)
  | value (fault : EscapeFault) (position : Nat)
  | text (fault : EscapeFault) (position : Nat)
deriving DecidableEq, Repr

/-- What is missing from a piece. -/
def CutFault.message : CutFault → String
  | .unknownMarkup => "unknown or missed symbol in markup"
  | .unclosedInstruction =>
    "processing instruction or xml declaration not closed: `?>` not found before end of input"
  | .unclosedComment => "comment not closed: `-->` not found before end of input"
  | .unclosedDoctype => "DOCTYPE not closed: `>` not found before end of input"
  | .unclosedCdata => "CDATA not closed: `]]>` not found before end of input"
  | .unclosedTag => "tag not closed: `>` not found before end of input"

/-- The message of a fault. -/
def Fault.message : Fault → String
  | .cut fault _ => "syntax error: " ++ fault.message
  | .missingDoctypeName _ =>
    "ill-formed document: `<!DOCTYPE>` declaration does not contain a name of a document type"
  | .unmatchedClose name _ =>
    "ill-formed document: close tag `</" ++ name ++ ">` does not match any open tag"
  | .mismatchedClose expected found _ =>
    "ill-formed document: expected `</" ++ expected ++ ">`, but `</" ++ found ++ ">` was found"
  | .form fault => "Attribute error: " ++ fault.message
  | .value fault _ => "Invalid attribute value: " ++ fault.message
  | .text fault _ => "Invalid text content: " ++ fault.message

/-- The place of a fault; the form of attributes is reported by offsets in the tag instead. -/
def Fault.position? : Fault → Option Nat
  | .cut _ position => some position
  | .missingDoctypeName position => some position
  | .unmatchedClose _ position => some position
  | .mismatchedClose _ _ position => some position
  | .form _ => none
  | .value _ position => some position
  | .text _ position => some position

/-- A fault as an error of the library. -/
def Fault.error (fault : Fault) : Error :=
  .xml fault.message fault.position?

/-- A token together with the names of the elements that are open after it, innermost first. -/
structure Step where
  token : Token
  opened : List (List Char)
deriving DecidableEq, Repr

/-- Reads an open tag that ends at the byte `stop`. -/
def stepOpenTag (opened : List (List Char)) (stop : Nat) (body : List Char) : Except Fault Step :=
  let isEmpty := body.getLast? == some '/'
  let content := if isEmpty then body.dropLast else body
  match readTag content with
  | .error (.form fault) => .error (.form fault)
  | .error (.value fault) => .error (.value fault stop)
  | .ok (name, attributes) =>
    if isEmpty then .ok ⟨.empty name attributes, opened⟩
    else .ok ⟨.start name attributes, content.takeWhile isNameChar :: opened⟩

/-- Reads a close tag that starts at the byte `start`. -/
def stepCloseTag (opened : List (List Char)) (start : Nat) (body : List Char) :
    Except Fault Step :=
  let name := closingName body
  match opened with
  | [] => .error (.unmatchedClose (String.ofList name) start)
  | expected :: outer =>
    if name = expected then .ok ⟨.close (String.ofList name), outer⟩
    else .error (.mismatchedClose (String.ofList expected) (String.ofList name) start)

/-- Reads a piece that lies between the bytes `start` and `stop`. -/
def stepPiece (opened : List (List Char)) (start stop : Nat) : Piece → Except Fault Step
  | .text content =>
    match unescape content with
    | .error fault => .error (.text fault stop)
    | .ok decoded => .ok ⟨.text (String.ofList decoded), opened⟩
  | .openTag body => stepOpenTag opened stop body
  | .closeTag body => stepCloseTag opened start body
  | .comment _ => .ok ⟨.aside, opened⟩
  | .cdata content => .ok ⟨.cdata (String.ofList content), opened⟩
  | .instruction _ => .ok ⟨.aside, opened⟩
  | .doctype _ content =>
    if content.all isMarkupSpace then .error (.missingDoctypeName (stop - 1))
    else .ok ⟨.aside, opened⟩

/-- The tokens of a document, and the fault that ends them if the document is not well formed. -/
structure Scan where
  tokens : List Token
  fault? : Option Fault
deriving DecidableEq, Repr

/-- Reads a document from the byte `position` on. -/
def scanFrom (opened : List (List Char)) (position : Nat) : List Char → Scan
  | [] => ⟨[], none⟩
  | c :: cs =>
    match _hcut : Piece.cut (c :: cs) with
    | .error fault => ⟨[], some (.cut fault position)⟩
    | .ok (piece, rest) =>
      let stop := position + byteLength piece.source
      match stepPiece opened position stop piece with
      | .error fault => ⟨[], some fault⟩
      | .ok step =>
        let later := scanFrom step.opened stop rest
        ⟨step.token :: later.tokens, later.fault?⟩
termination_by cs => cs.length
decreasing_by exact Piece.length_lt_of_cut (List.cons_ne_nil c cs) _hcut

/-- A document without its byte order mark. -/
def withoutByteOrderMark : List Char → List Char
  | '\uFEFF' :: cs => cs
  | cs => cs

/-- Reads a document. -/
def scan (document : String) : Scan :=
  scanFrom [] 0 (withoutByteOrderMark document.toList)

end CitationLocale.Markup
