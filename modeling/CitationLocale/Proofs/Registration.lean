import CitationLocale.Registry
import Mathlib.Data.List.Basic

/-!
# Bindings of a registry

The types of a registry are the types of its history, each at the place of its first registration.
So a name is bound, in every category, to the first type of the history that has the name and the
category, and nothing that is registered later takes a binding away
(`Registry.find?_types_foldl_register`, `Registry.bindings_of_history`).

A registry can be kept as two tables that are filled while types are registered: one binds a name to
the type that claimed it first, the other lists the types of each category. The tables answer every
query as the list of types does (`Registry.Tables.mirrors_ofTypes`).
-/

namespace CitationLocale

deriving instance Hashable for Category

namespace Registry

/-- The registry in which types were registered one after the other. -/
def ofTypes (history : List NodeType) : Registry :=
  history.foldl register empty

variable (r : Registry) (t : NodeType) (c : Category) (name : String)

/-! ## Registering types -/

/-- A type that is registered again is not found behind itself. -/
theorem find?_types_register (p : NodeType → Bool) :
    (r.register t).types.find? p = (r.types.find? p).or ([t].find? p) := by
  by_cases hmem : t ∈ r.types
  · rw [register_of_mem hmem]
    cases hfind : r.types.find? p with
    | some u => rfl
    | none => rw [Option.none_or, List.find?_singleton, if_neg (List.find?_eq_none.1 hfind t hmem)]
  · rw [types_register_of_not_mem hmem, List.find?_append]

theorem find?_types_foldl_register (history : List NodeType) (p : NodeType → Bool) :
    (history.foldl register r).types.find? p = (r.types.find? p).or (history.find? p) := by
  induction history generalizing r with
  | nil => rw [List.foldl_nil, List.find?_nil, Option.or_none]
  | cons t history ih =>
    rw [List.foldl_cons, ih, find?_types_register, Option.or_assoc, ← List.find?_append,
      List.singleton_append]

theorem mem_types_register {u : NodeType} : u ∈ (r.register t).types ↔ u ∈ r.types ∨ u = t := by
  by_cases hmem : t ∈ r.types
  · rw [register_of_mem hmem]
    exact ⟨.inl, fun h => h.elim id fun hu => hu ▸ hmem⟩
  · rw [types_register_of_not_mem hmem, List.mem_append, List.mem_singleton]

theorem mem_types_foldl_register (history : List NodeType) {u : NodeType} :
    u ∈ (history.foldl register r).types ↔ u ∈ r.types ∨ u ∈ history := by
  induction history generalizing r with
  | nil => simp
  | cons t history ih => rw [List.foldl_cons, ih, mem_types_register, or_assoc, List.mem_cons]

/-! ## The types of a category -/

/-- A type is found among the types of a category however often it is listed there. -/
theorem find?_listings (categories : List Category) (p : NodeType → Bool) :
    ((categories.filter (· == c)).map fun _ => t).find? p =
      if p t ∧ c ∈ categories then some t else none := by
  induction categories with
  | nil => rw [if_neg fun h => absurd h.2 List.not_mem_nil]; rfl
  | cons d categories ih =>
    by_cases hd : d = c
    · rw [List.filter_cons_of_pos (by simpa using hd), List.map_cons, List.find?_cons, ih]
      cases p t <;> simp [hd]
    · rw [List.filter_cons_of_neg (by simpa using hd), ih]
      simp [Ne.symm hd]

theorem lookupIn?_eq_find? :
    r.lookupIn? c name = r.types.find? fun t => t.name = name ∧ c ∈ t.categories := by
  rw [lookupIn?, typesIn, List.find?_flatMap]
  simp only [find?_listings, beq_iff_eq]
  induction r.types with
  | nil => rfl
  | cons t types ih =>
    rw [List.findSome?_cons, List.find?_cons, ih]
    by_cases h : t.name = name ∧ c ∈ t.categories <;> simp [h]

theorem lookup?_eq_lookupIn? : r.lookup? name = r.lookupIn? .node name := by
  rw [lookupIn?_eq_find?, lookup?]
  congr 1
  funext t
  simp [NodeType.categories, Bool.beq_eq_decide_eq]

/-- What is bound in a category stays bound while further types are registered. -/
theorem lookupIn?_foldl_register (more : List NodeType) {u : NodeType}
    (h : r.lookupIn? c name = some u) : (more.foldl register r).lookupIn? c name = some u := by
  rw [lookupIn?_eq_find?] at h ⊢
  rw [find?_types_foldl_register, h, Option.some_or]

theorem lookupIn?_ofTypes (history : List NodeType) : (ofTypes history).lookupIn? c name =
    history.find? fun t => t.name = name ∧ (c = .node ∨ c ∈ t.declaration.nesting) := by
  rw [lookupIn?_eq_find?, ofTypes, find?_types_foldl_register]
  simp [empty, NodeType.categories]

/-! ## Tables -/

/-- A registry that binds names and lists the types of categories while types are registered. -/
structure Tables where
  types : List NodeType
  byName : Std.HashMap String NodeType
  byCategory : Std.HashMap Category (List NodeType)

namespace Tables

/-- Tables without types. -/
def empty : Tables := ⟨[], ∅, ∅⟩

/-- Puts a type behind the types of a category. -/
def list (t : NodeType) (table : Std.HashMap Category (List NodeType)) (c : Category) :
    Std.HashMap Category (List NodeType) :=
  table.insert c (table.getD c [] ++ [t])

/-- Registers a type: a name that is free is bound to it, and it is listed under its categories. -/
def register (x : Tables) (t : NodeType) : Tables :=
  if t ∈ x.types then x
  else ⟨x.types ++ [t], x.byName.insertIfNew t.name t, t.categories.foldl (list t) x.byCategory⟩

/-- The tables in which types were registered one after the other. -/
def ofTypes (history : List NodeType) : Tables :=
  history.foldl register empty

/-- The types of a category. -/
def typesIn (x : Tables) (c : Category) : List NodeType := x.byCategory.getD c []

/-- The type with a name. -/
def lookup? (x : Tables) (name : String) : Option NodeType := x.byName[name]?

/-- The type of a category with a name. -/
def lookupIn? (x : Tables) (c : Category) (name : String) : Option NodeType :=
  (x.typesIn c).find? fun t => t.name == name

/-- Tables that answer every query as a registry does. -/
structure Mirrors (x : Tables) (r : Registry) : Prop where
  types_eq : x.types = r.types
  lookup?_eq : ∀ name, x.lookup? name = r.lookup? name
  typesIn_eq : ∀ c, x.typesIn c = r.typesIn c

theorem getD_foldl_list (categories : List Category)
    (table : Std.HashMap Category (List NodeType)) :
    (categories.foldl (list t) table).getD c [] =
      table.getD c [] ++ (categories.filter (· == c)).map fun _ => t := by
  induction categories generalizing table with
  | nil => rw [List.foldl_nil, List.filter_nil, List.map_nil, List.append_nil]
  | cons d categories ih =>
    rw [List.foldl_cons, ih, list, Std.HashMap.getD_insert]
    by_cases hd : d = c
    · subst hd
      rw [if_pos (by simp), List.filter_cons_of_pos (by simp), List.map_cons, List.append_assoc,
        List.singleton_append]
    · rw [if_neg (by simpa using hd), List.filter_cons_of_neg (by simpa using hd)]

variable {r} {x : Tables}

theorem Mirrors.register (h : x.Mirrors r) (t : NodeType) :
    (x.register t).Mirrors (r.register t) := by
  by_cases hmem : t ∈ r.types
  · rwa [register_of_mem hmem, Tables.register, if_pos (h.types_eq ▸ hmem)]
  · have htypes := types_register_of_not_mem hmem
    rw [Tables.register, if_neg (h.types_eq ▸ hmem)]
    refine ⟨by rw [h.types_eq, htypes], fun name => ?_, fun c => ?_⟩
    · have hbound : x.byName[name]? = r.types.find? fun u => u.name == name := h.lookup?_eq name
      have hfree : name ∉ x.byName ↔ (r.types.find? fun u => u.name == name) = none := by
        rw [Std.HashMap.mem_iff_isSome_getElem?, hbound, Option.not_isSome_iff_eq_none]
      rw [Tables.lookup?, Registry.lookup?, htypes, List.find?_append, List.find?_singleton,
        Std.HashMap.getElem?_insertIfNew, hbound]
      by_cases hname : t.name = name
      · subst hname
        simp only [hfree]
        cases r.types.find? fun u => u.name == t.name <;> simp
      · simp [hname]
    · rw [Tables.typesIn, getD_foldl_list, Registry.typesIn, htypes, List.flatMap_append,
        List.flatMap_singleton]
      exact congrArg (· ++ _) (h.typesIn_eq c)

theorem mirrors_ofTypes (history : List NodeType) :
    (ofTypes history).Mirrors (Registry.ofTypes history) := by
  have hempty : Tables.empty.Mirrors Registry.empty :=
    ⟨rfl, fun _ => Std.HashMap.getElem?_empty, fun _ => Std.HashMap.getD_empty⟩
  have hrun : ∀ {x : Tables} {r : Registry}, x.Mirrors r →
      (history.foldl register x).Mirrors (history.foldl Registry.register r) := by
    induction history with
    | nil => exact id
    | cons t history ih => exact fun h => ih (h.register t)
  exact hrun hempty

end Tables

/-! ## Bindings of a history -/

/-- In every category a name is bound to the first type of the history that has the name and the
category, and a lookup without a category is one in the category of all nodes. Types of the history
can be registered again without effect; types that are registered later change no binding. The
tables, filled by the same history, give the same answers. -/
theorem bindings_of_history (history : List NodeType) :
    (∀ c name, (ofTypes history).lookupIn? c name =
        history.find? fun t => t.name = name ∧ (c = .node ∨ c ∈ t.declaration.nesting)) ∧
      (∀ name, (ofTypes history).lookup? name = (ofTypes history).lookupIn? .node name) ∧
      (∀ name supplied, (ofTypes history).create name supplied =
        (ofTypes history).createIn .node name supplied) ∧
      (∀ t ∈ history, (∀ name, ((ofTypes history).register t).lookup? name =
            (ofTypes history).lookup? name) ∧
          (∀ c name, ((ofTypes history).register t).lookupIn? c name =
            (ofTypes history).lookupIn? c name) ∧
          ∀ c, ((ofTypes history).register t).typesIn c = (ofTypes history).typesIn c) ∧
      (∀ more name u, (ofTypes history).lookup? name = some u →
        (ofTypes (history ++ more)).lookup? name = some u) ∧
      (∀ more c name u, (ofTypes history).lookupIn? c name = some u →
        (ofTypes (history ++ more)).lookupIn? c name = some u) ∧
      (∀ name, (Tables.ofTypes history).lookup? name = (ofTypes history).lookup? name) ∧
      (∀ c name, (Tables.ofTypes history).lookupIn? c name =
        (ofTypes history).lookupIn? c name) ∧
      ∀ c, (Tables.ofTypes history).typesIn c = (ofTypes history).typesIn c := by
  have hmirrors := Tables.mirrors_ofTypes history
  have hmore : ∀ more c name u, (ofTypes history).lookupIn? c name = some u →
      (ofTypes (history ++ more)).lookupIn? c name = some u := by
    intro more c name u h
    rw [ofTypes, List.foldl_append]
    exact lookupIn?_foldl_register _ c name more h
  refine ⟨fun c name => lookupIn?_ofTypes c name history, lookup?_eq_lookupIn? _,
    fun name supplied => ?_, fun t ht => ?_, fun more name u h => ?_, hmore,
    hmirrors.lookup?_eq, fun c name => ?_, hmirrors.typesIn_eq⟩
  · rw [create, createIn, lookup?_eq_lookupIn?]
  · have hmem : t ∈ (ofTypes history).types := (mem_types_foldl_register _ history).2 (.inr ht)
    rw [register_of_mem hmem]
    exact ⟨fun _ => rfl, fun _ _ => rfl, fun _ => rfl⟩
  · rw [lookup?_eq_lookupIn?] at h ⊢
    exact hmore more .node name u h
  · rw [Tables.lookupIn?, hmirrors.typesIn_eq, lookupIn?]

/-- A type with a name that is taken, registered twice and listed twice in one category: the name is
bound to it in this category only. -/
theorem bindings_of_rival :
    let rival : NodeType := .declared 0 ⟨"Rival", some "term", [], .leaf, [.term, .term]⟩
    let r := ofTypes [.builtin .term, rival, rival]
    r.lookup? "term" = some (.builtin .term) ∧ r.lookupIn? .term "term" = some rival ∧
      r.typesIn .term = [rival, rival] ∧ (r.register rival).typesIn .term = [rival, rival] ∧
      (ofTypes [.builtin .term, rival, rival, .builtin .single]).lookup? "term" =
        some (.builtin .term) := by
  intro rival r
  obtain ⟨hin, hlookup, -, hagain, hmore, -⟩ :=
    bindings_of_history [.builtin .term, rival, rival]
  have hterm : r.lookup? "term" = some (.builtin .term) := by
    rw [hlookup, hin]
    decide
  have htypes : r.typesIn .term = [rival, rival] := by decide
  refine ⟨hterm, ?_, htypes, ?_, hmore [.builtin .single] "term" _ hterm⟩
  · rw [hin]
    decide
  · rw [(hagain rival (by simp)).2.2, htypes]

end Registry

end CitationLocale
