/-!
# Attribute records

A record maps attribute names to values and remembers the order of the names. It is either open,
and then takes any name, or fixed by a schema, and then holds exactly the names of the schema in
the order of the schema. A name can be present without a value.
-/

namespace CitationLocale

/-- A name that a schema admits, and the value it has unless another one is given. -/
structure AttributeSpec where
  name : String
  default? : Option String
deriving DecidableEq, Repr

/-- The attributes of a node type in their order. -/
abbrev Schema := List AttributeSpec

/-- A record of attributes; it is open if it has no schema. -/
structure Attributes where
  schema? : Option Schema
  entries : List (String × Option String)
deriving DecidableEq, Repr

/-- Puts a value at the first entry of a key. -/
def replaceFirst (key : String) (value? : Option String) :
    List (String × Option String) → List (String × Option String)
  | [] => []
  | (k, v) :: entries =>
    if k = key then (k, value?) :: entries else (k, v) :: replaceFirst key value? entries

/-- Putting a value into an entry keeps the keys. -/
theorem keys_replaceFirst (key : String) (value? : Option String)
    (entries : List (String × Option String)) :
    (replaceFirst key value? entries).map Prod.fst = entries.map Prod.fst := by
  induction entries with
  | nil => rfl
  | cons e entries ih =>
    obtain ⟨k, v⟩ := e
    by_cases h : k = key <;> simp [replaceFirst, h, ih]

/-- Putting a value into an entry changes what is found under its key, if there is an entry for
it, and nothing else. -/
theorem lookup_replaceFirst (key k : String) (value? : Option String)
    (entries : List (String × Option String)) :
    (replaceFirst key value? entries).lookup k =
      if k = key ∧ (entries.lookup key).isSome then some value? else entries.lookup k := by
  induction entries with
  | nil => simp [replaceFirst]
  | cons e entries ih =>
    obtain ⟨k', v⟩ := e
    by_cases h : k' = key <;> by_cases hk : k = k' <;> grind [replaceFirst]

namespace Attributes

/-- The open record without entries. -/
def empty : Attributes := ⟨none, []⟩

/-- The fixed record of a schema in which no attribute has a value. -/
def blank (schema : Schema) : Attributes :=
  ⟨some schema, schema.map fun spec => (spec.name, none)⟩

/-- The fixed record of a schema in which every attribute has its default, if it has one. -/
def defaults (schema : Schema) : Attributes :=
  ⟨some schema, schema.map fun spec => (spec.name, spec.default?)⟩

/-! ## Reading a record -/

/-- Whether the record is fixed by a schema. -/
def isFixed (r : Attributes) : Bool :=
  r.schema?.isSome

/-- The number of entries. -/
def size (r : Attributes) : Nat :=
  r.entries.length

/-- Whether no attribute has a value. -/
def isEmpty (r : Attributes) : Bool :=
  r.entries.all fun e => e.2.isNone

/-- The names in the record, in order. -/
def keys (r : Attributes) : List String :=
  r.entries.map fun e => e.1

/-- Whether the record holds a name, with or without a value. -/
def contains (r : Attributes) (key : String) : Bool :=
  r.entries.any fun e => e.1 == key

/-- The value of an attribute; of several entries with one name the first one counts. -/
def get? (r : Attributes) (key : String) : Option String :=
  (r.entries.lookup key).join

/-- The value of an attribute, or a default. -/
def getD (r : Attributes) (key default : String) : String :=
  (r.get? key).getD default

/-- The value at each place of the record. -/
def toList (r : Attributes) : List (Option String) :=
  r.entries.map fun e => e.2

/-- The values in the record, in order. -/
def values (r : Attributes) : List String :=
  r.toList.filterMap id

/-- The attributes that have a value, in order. -/
def assigned (r : Attributes) : List (String × String) :=
  r.entries.filterMap fun e => e.2.map fun v => (e.1, v)

/-- The default that the schema declares for an attribute. -/
def default? (r : Attributes) (key : String) : Option String := do
  let schema ← r.schema?
  let spec ← schema.find? fun spec => spec.name == key
  spec.default?

/-- Whether an attribute has a default and this is its value. -/
def isDefault (r : Attributes) (key : String) : Bool :=
  match r.default? key with
  | some d => r.get? key == some d
  | none => false

/-- Whether two records hold the same. Open records may differ in the order of their entries;
if one of the two is fixed, the entries are compared place by place. -/
def agrees (a b : Attributes) : Bool :=
  if a.schema?.isNone && b.schema?.isNone then
    a.entries.length == b.entries.length &&
      a.entries.all fun e => b.entries.lookup e.1 == some e.2
  else
    a.entries == b.entries

/-! ## Changing a record -/

/-- Gives an attribute a value; a fixed record has no place for a name outside its schema. -/
def set? (r : Attributes) (key value : String) : Option Attributes :=
  if r.contains key then some { r with entries := replaceFirst key (some value) r.entries }
  else if r.isFixed then none
  else some { r with entries := r.entries ++ [(key, some value)] }

/-- Gives an attribute a value where the record has a place for it. -/
def set (r : Attributes) (key value : String) : Attributes :=
  (r.set? key value).getD r

/-- Takes the value of an attribute away; its name stays in the record. -/
def clear (r : Attributes) (key : String) : Attributes :=
  { r with entries := replaceFirst key none r.entries }

end Attributes

end CitationLocale
