import CitationLocale.Term.Form
import CitationLocale.Term.Number
import CitationLocale.Term.OrdinalClass
import CitationLocale.Text.Blank
import CitationLocale.TextNode

/-!
# Terms

A term is a word or phrase of a locale. Its content is either flat text, or a singular and a
plural form of which one or both may be missing. The two kinds of content exclude each other:
what would discard content that is not blank is refused.
-/

namespace CitationLocale

open Text

/-- A form of a term: what its text node holds. The type of this node is that of the place which the
form has in the term. -/
structure FormNode where
  attributes : Attributes
  text : String
deriving DecidableEq, Repr

namespace FormNode

/-- What a text node holds. -/
def ofNode (node : TextNode) : FormNode :=
  ⟨node.attributes, node.text⟩

/-- A new form of a type. -/
def ofText (type : Builtin) (text : String) : FormNode :=
  ofNode (.typed (.builtin type) .empty text)

/-- The text node of a form. -/
def node (f : FormNode) (type : Builtin) : TextNode :=
  ⟨some (.builtin type), f.attributes, f.text⟩

end FormNode

/-- The content of a term. A new term has neither text nor forms. -/
inductive TermContent where
  | flat (text : String)
  | forms (single? multiple? : Option FormNode)
deriving DecidableEq, Repr

structure Term where
  attributes : Attributes
  content : TermContent
deriving DecidableEq, Repr

namespace Term

/-- A term without content. -/
def create (supplied : Attributes) : Term :=
  ⟨createAttributes (some (.builtin .term)) supplied, .forms none none⟩

/-- A term without content that has only a name. -/
def named (name : String) : Term :=
  create (Attributes.ofPairs [("name", name)])

/-! ## Attributes -/

/-- The name of a term. -/
def name? (t : Term) : Option String :=
  t.attributes.get? "name"

/-- The form of a term: long unless one is given, and none if the given one is unknown. -/
def form? (t : Term) : Option TermForm :=
  match t.attributes.get? "form" with
  | some s => TermForm.ofText? s
  | none => some .long

/-- The gender of a term: neutral unless a known one is given. -/
def gender (t : Term) : Gender :=
  ((t.attributes.get? "gender").bind Gender.ofText?).getD .neutral

/-- The gender of the words that an ordinal term goes with. -/
def genderForm? (t : Term) : Option Gender :=
  (t.attributes.get? "gender-form").bind Gender.ofText?

/-- The match rule of an ordinal term. -/
def ordinalMatch? (t : Term) : Option OrdinalMatch :=
  (t.attributes.get? "match").bind OrdinalMatch.ofText?

/-- What the name of a term says about ordinal numbers. -/
def ordinalClass? (t : Term) : Option OrdinalClass :=
  t.name?.bind OrdinalClass.ofName?

/-- Whether a term has one of the genders that are spelled out. -/
def isGendered (t : Term) : Bool :=
  t.gender != .neutral

/-- Whether a term is for ordinal numbers. -/
def isOrdinal (t : Term) : Bool :=
  t.ordinalClass?.isSome

/-- Whether a term is for ordinal numbers written in digits. -/
def isShortOrdinal (t : Term) : Bool :=
  match t.ordinalClass? with
  | some .generic => true
  | some (.short _) => true
  | _ => false

/-- Whether a term is for ordinal numbers written as words. -/
def isLongOrdinal (t : Term) : Bool :=
  match t.ordinalClass? with
  | some (.long _) => true
  | _ => false

/-- Sets an attribute where terms have it. -/
def set (t : Term) (key value : String) : Term :=
  { t with attributes := t.attributes.set key value }

/-- Takes the value of an attribute away. -/
def clear (t : Term) (key : String) : Term :=
  { t with attributes := t.attributes.clear key }

/-- Sets the form. -/
def setForm (t : Term) (form : TermForm) : Term :=
  t.set "form" form.text

/-- Sets the gender; the neutral one is not spelled out. -/
def setGender (t : Term) (gender : Gender) : Term :=
  if gender = .neutral then t.clear "gender" else t.set "gender" gender.text

/-! ## Content -/

/-- The flat text. -/
def text? (t : Term) : Option String :=
  match t.content with
  | .flat s => some s
  | .forms _ _ => none

/-- The singular form. -/
def singleForm? (t : Term) : Option FormNode :=
  match t.content with
  | .flat _ => none
  | .forms s _ => s

/-- The plural form. -/
def multipleForm? (t : Term) : Option FormNode :=
  match t.content with
  | .flat _ => none
  | .forms _ m => m

/-- The text of the singular form. -/
def single? (t : Term) : Option String :=
  t.singleForm?.map FormNode.text

/-- The text of the plural form. -/
def multiple? (t : Term) : Option String :=
  t.multipleForm?.map FormNode.text

/-- Whether the term has a singular or a plural form. -/
def hasForms (t : Term) : Bool :=
  t.singleForm?.isSome || t.multipleForm?.isSome

/-- Replaces the content by flat text. -/
def setText (t : Term) (s : String) : Term :=
  { t with content := .flat s }

/-- Puts a singular form in place of flat text or of an earlier singular form. -/
def putSingle (t : Term) (f : FormNode) : Term :=
  { t with content := .forms (some f) t.multipleForm? }

/-- Puts a plural form in place of flat text or of an earlier plural form. -/
def putMultiple (t : Term) (f : FormNode) : Term :=
  { t with content := .forms t.singleForm? (some f) }

/-- Sets the singular form. -/
def setSingle (t : Term) (s : String) : Term :=
  t.putSingle (.ofText .single s)

/-- Sets the plural form. -/
def setMultiple (t : Term) (s : String) : Term :=
  t.putMultiple (.ofText .multiple s)

/-- Sets both forms. -/
def setForms (t : Term) (single multiple : String) : Term :=
  (t.setSingle single).setMultiple multiple

/-- The term in the singular. -/
def singularize (t : Term) : String :=
  (t.text?.or t.single?).getD ""

/-- The term in the plural. -/
def pluralize (t : Term) : String :=
  (t.text?.or t.multiple?).getD ""

/-- The term in the number that is asked for. -/
def render (t : Term) (options : RenderOptions) : String :=
  if options.isPlural then t.pluralize else t.singularize

/-! ## Adding to the content -/

/-- Appends text. Beside a form only blank text is admitted, and dropped. -/
def pushText (t : Term) (s : String) : Except Error Term :=
  match t.content with
  | .flat old => .ok { t with content := .flat (old ++ s) }
  | .forms none none => .ok { t with content := .flat s }
  | .forms _ _ => if isBlank s then .ok t else .error (.invalidChild "term" "text")

/-- Drops flat text to make room for a form, if it is blank. -/
def dropBlankText (t : Term) (form : TextNode) : Except Error Term :=
  match t.content with
  | .flat old =>
    if isBlank old then .ok { t with content := .forms none none }
    else .error (.invalidChild "term" ("<" ++ form.name ++ ">"))
  | .forms _ _ => .ok t

/-- Adds a text node: raw text is appended, a form replaces an earlier one of its kind. -/
def attach (t : Term) (node : TextNode) : Except Error Term :=
  match node.type? with
  | none => t.pushText node.text
  | some (.builtin .single) => do return (← t.dropBlankText node).putSingle (.ofNode node)
  | some (.builtin .multiple) => do return (← t.dropBlankText node).putMultiple (.ofNode node)
  | some _ => .error (.invalidChild "term" ("<" ++ node.name ++ ">"))

/-- The text nodes of the forms, the singular before the plural. -/
def formNodes (t : Term) : List TextNode :=
  (t.singleForm?.map (·.node .single)).toList ++ (t.multipleForm?.map (·.node .multiple)).toList

end Term

end CitationLocale
