import CitationLocale.Proofs.OpenElements
import CitationLocale.Proofs.WrittenTree

/-!
# Creating nodes

A registry creates a node of the type that a name stands for, with the name and the attributes of
this type. Terms and term tables are the exception: they get the built-in type, also where the name
stands for another one (`NodeType.made`). So a node is what its name asks for just if the type of
the name is made into itself, and if a type is made into one with another name, there is a document
whose tags match and which is refused because they do not (`Registry.create_follows_type`).
-/

namespace CitationLocale

open Markup

/-- The type that a node gets when it is created for a type. -/
def NodeType.made (t : NodeType) : NodeType :=
  match t.variant with
  | .branch | .leaf => t
  | .term => .builtin .term
  | .termTable => .builtin .terms

/-- Whether a node is what a type and a name ask for. Without a type it is a generic element. -/
structure Node.IsMadeFrom (n : Node) (type? : Option NodeType) (name : String)
    (supplied : Attributes) : Prop where
  name_eq : n.name = name
  type?_eq : n.type? = type?
  attributes_eq : n.attributes = createAttributes type? supplied
  eq_generic : type? = none → n = .generic name supplied

namespace Registry

variable (type? : Option NodeType) (name : String) (supplied : Attributes)

/-! ## One node -/

theorem type?_instantiate :
    (instantiate type? name supplied).type? = type?.map NodeType.made := by
  cases type? with
  | none => rfl
  | some t =>
    simp only [instantiate, Option.map_some, NodeType.made]
    cases t.variant <;> rfl

theorem name_instantiate :
    (instantiate type? name supplied).name = (type?.map fun t => t.made.name).getD name := by
  cases type? with
  | none => rfl
  | some t =>
    simp only [instantiate, Option.map_some, Option.getD_some, NodeType.made]
    cases t.variant <;> rfl

theorem attributes_instantiate : (instantiate type? name supplied).attributes =
    createAttributes (type?.map NodeType.made) supplied := by
  cases type? with
  | none => rfl
  | some t =>
    simp only [instantiate, Option.map_some, NodeType.made]
    cases t.variant with
    | branch | leaf | term => rfl
    | termTable => exact (createAttributes_of_nil rfl supplied).symm

/-- Every node is made of the type that is made of its type. -/
theorem isMadeFrom_made : (instantiate type? name supplied).IsMadeFrom (type?.map NodeType.made)
    ((type?.map fun t => t.made.name).getD name) supplied := by
  refine ⟨name_instantiate _ _ _, type?_instantiate _ _ _, attributes_instantiate _ _ _,
    fun hnone => ?_⟩
  obtain rfl := Option.map_eq_none_iff.1 hnone
  rfl

variable {type? name} in
theorem isMadeFrom_instantiate_iff (hname : ∀ t ∈ type?, t.name = name) :
    (instantiate type? name supplied).IsMadeFrom type? name supplied ↔
      ∀ t ∈ type?, t.made = t := by
  constructor
  · rintro h t rfl
    have htype := h.type?_eq
    rw [type?_instantiate] at htype
    exact Option.some.inj htype
  · intro hmade
    have h := isMadeFrom_made type? name supplied
    cases type? with
    | none => exact h
    | some t =>
      rw [Option.map_some, Option.map_some, hmade t rfl, Option.getD_some, hname t rfl] at h
      exact h

variable {r : Registry}

theorem name_of_lookupIn? {c : Category} {t : NodeType} (h : r.lookupIn? c name = some t) :
    t.name = name := by
  simpa using List.find?_some h

/-! ## Matching tags -/

theorem keepsNames_iff :
    r.KeepsNames ↔ ∀ name, ∀ t ∈ r.lookup? name, t.made.name = name := by
  refine forall_congr' fun name => ⟨fun h t ht => ?_, fun h supplied => ?_⟩
  · have hname := h .empty
    rwa [create, name_instantiate, Option.mem_def.1 ht] at hname
  · rw [create, name_instantiate]
    cases hlookup : r.lookup? name with
    | none => rfl
    | some t => exact h t hlookup

/-- Where the name of a type is not the name of the nodes that are made of it, an element with this
name cannot be closed. -/
theorem parseWith_of_misnamed {t : NodeType} (hname : IsXmlName name)
    (hlookup : r.lookup? name = some t) (hne : t.made.name ≠ name) :
    Node.parseWith r ("<" ++ name ++ "></" ++ name ++ ">") =
      .error (.mismatchedEndTag t.made.name name) := by
  have hwritable : ∀ f ∈ [Fragment.start name [], .close name], f.IsWritable := by
    simp only [List.forall_mem_cons]
    exact ⟨⟨hname, fun a ha => absurd ha List.not_mem_nil, List.nodup_nil⟩, hname,
      fun f hf => absurd hf List.not_mem_nil⟩
  have hcreate : (r.create name .empty).name = t.made.name := by
    rw [create, name_instantiate, hlookup]
    rfl
  have hchars : "<" ++ name ++ "></" ++ name ++ ">" =
      String.ofList ([Fragment.start name [], .close name].flatMap Fragment.chars) := by
    rw [← String.toList_inj]
    simp [Fragment.chars]
  have hparse : Node.parseWith r (String.ofList
        ([Fragment.start name [], .close name].flatMap Fragment.chars)) =
      (Item.element name [] []).build r :=
    parseWith_written [.element name [] []] hwritable rfl rfl rfl
  rw [hchars, hparse, Item.build, Item.fill, Result.ok_bind, OpenNode.closeAs]
  dsimp only
  rw [Attributes.ofPairs, Attributes.extend, List.foldl_nil, hcreate, if_neg hne]

/-- A node is always made of what is made of the type of its name. This is the type of its name
just if the variant of the type is a branch or a leaf, or the type is the built-in one of its
variant. Tags that match are read as matching if all nodes have the names that they are made for;
otherwise there is a document in which they are not. -/
theorem create_follows_type (r : Registry) :
    (∀ type? name supplied, (instantiate type? name supplied).IsMadeFrom (type?.map NodeType.made)
        ((type?.map fun t => t.made.name).getD name) supplied) ∧
      (∀ name supplied, (r.create name supplied).IsMadeFrom (r.lookup? name) name supplied ↔
        ∀ t ∈ r.lookup? name, t.made = t) ∧
      (∀ c name supplied,
        (r.createIn c name supplied).IsMadeFrom (r.lookupIn? c name) name supplied ↔
          ∀ t ∈ r.lookupIn? c name, t.made = t) ∧
      ((∀ name, ∀ t ∈ r.lookup? name, t.made.name = name) → ∀ s expected found,
        Node.parseWith r s ≠ .error (.mismatchedEndTag expected found)) ∧
      ∀ name, IsXmlName name → ∀ t ∈ r.lookup? name, t.made.name ≠ name →
        Node.parseWith r ("<" ++ name ++ "></" ++ name ++ ">") =
          .error (.mismatchedEndTag t.made.name name) := by
  refine ⟨isMadeFrom_made, fun name supplied => ?_, fun c name supplied => ?_,
    fun h s expected found hparse => ?_,
    fun name hname t ht hne => parseWith_of_misnamed name hname ht hne⟩
  · exact isMadeFrom_instantiate_iff supplied fun t ht => name_of_lookup? ht
  · exact isMadeFrom_instantiate_iff supplied fun t ht => name_of_lookupIn? name ht
  · exact not_isRefusal_mismatchedEndTag (isRefusal_of_parseWith (keepsNames_iff.2 h) hparse)

/-- The built-in types are followed, and an end tag that does not match is a fault of the markup. -/
theorem create_follows_builtin_type :
    (builtins.create "terms" (.ofPairs [("k", "v")])).IsMadeFrom (some (.builtin .terms)) "terms"
        (.ofPairs [("k", "v")]) ∧
      Node.parse "<term></terms>" ≠ .error (.mismatchedEndTag "term" "terms") := by
  have hmade : ∀ t ∈ builtins.types, t.made = t := by decide
  have hlookup (name : String) : ∀ t ∈ builtins.lookup? name, t.made = t := fun t ht =>
    hmade t (List.mem_of_find?_eq_some ht)
  obtain ⟨-, hcreate, -, hparse, -⟩ := create_follows_type builtins
  refine ⟨(hcreate "terms" _).2 (hlookup "terms"), hparse (fun name t ht => ?_) _ _ _⟩
  rw [hlookup name t ht, name_of_lookup? ht]

/-- A declared type of terms is not followed: the term has the built-in name, and an element with
the declared name cannot be closed. -/
theorem create_of_declared_term :
    ∃ r, r = empty.register (.declared 0 ⟨"Entry", some "entry", [⟨"k", none⟩], .term, []⟩) ∧
      ¬ (r.create "entry" .empty).IsMadeFrom (r.lookup? "entry") "entry" .empty ∧
      Node.parseWith r "<entry></entry>" = .error (.mismatchedEndTag "term" "entry") := by
  refine ⟨_, rfl, ?_, ?_⟩
  · intro h
    exact absurd h.name_eq (by decide)
  · exact parseWith_of_misnamed "entry" (by decide)
      (t := .declared 0 ⟨"Entry", some "entry", [⟨"k", none⟩], .term, []⟩) rfl (by decide)

end Registry

end CitationLocale
