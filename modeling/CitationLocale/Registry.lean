import CitationLocale.Node.Basic

/-!
# Registries of node types

A registry lists node types in the order in which they were registered. A name belongs to the
type that claimed it first. Nodes are created by name: a name of no registered type makes a
generic element.
-/

namespace CitationLocale

structure Registry where
  types : List NodeType
deriving DecidableEq, Repr

namespace Registry

/-- The registry without types. -/
def empty : Registry := ⟨[]⟩

/-- Registers a type; a type that is registered already stays where it is. -/
def register (r : Registry) (t : NodeType) : Registry :=
  if t ∈ r.types then r else ⟨r.types ++ [t]⟩

/-- The registry of the built-in types. -/
def builtins : Registry :=
  Builtin.all.foldl (fun r b => r.register (.builtin b)) empty

/-- The type with a name. -/
def lookup? (r : Registry) (name : String) : Option NodeType :=
  r.types.find? fun t => t.name == name

/-- The types of a category; a type appears as often as it names the category. -/
def typesIn (r : Registry) (c : Category) : List NodeType :=
  r.types.flatMap fun t => (t.categories.filter (· == c)).map fun _ => t

/-- The type of a category with a name. -/
def lookupIn? (r : Registry) (c : Category) (name : String) : Option NodeType :=
  (r.typesIn c).find? fun t => t.name == name

/-- A new node of a type, or a generic element with the given name. -/
def instantiate (type? : Option NodeType) (name : String) (supplied : Attributes) : Node :=
  match type? with
  | none => .generic name supplied
  | some t =>
    match t.variant with
    | .branch => .element (some t) t.name (createAttributes (some t) supplied) []
    | .leaf => .text (.typed t supplied "")
    | .term => .term (.create supplied)
    | .termTable => .terms .empty

/-- A new node with a name. -/
def create (r : Registry) (name : String) (supplied : Attributes) : Node :=
  instantiate (r.lookup? name) name supplied

/-- A new node with a name out of a category. -/
def createIn (r : Registry) (c : Category) (name : String) (supplied : Attributes) : Node :=
  instantiate (r.lookupIn? c name) name supplied

/-! ## Laws of registration and lookup -/

theorem register_of_mem {r : Registry} {t : NodeType} (h : t ∈ r.types) : r.register t = r := by
  simp [register, h]

theorem types_register_of_not_mem {r : Registry} {t : NodeType} (h : t ∉ r.types) :
    (r.register t).types = r.types ++ [t] := by
  simp [register, h]

end Registry

end CitationLocale
