import CitationLocale.Proofs.Agreement
import CitationLocale.Proofs.AttributeEdits

/-!
# Histories of a record

Every operation on a record is a run of single writes, each of which assigns a value to a name or
takes its value away (`RecordChange.apply_eq`). So what a record holds can be read off the writes
of its history: a fixed record has the names of its schema, an open one the names that were
assigned, in the order of their first assignment, and the value of a name is the one that was
written last (`RecordOrigin.after_refines_writes`).
-/

namespace CitationLocale

/-- A value assigned to a name, or taken away from it. -/
abbrev Write := String × Option String

namespace Attributes

/-- The record after a write. -/
def write (r : Attributes) (w : Write) : Attributes :=
  match w.2 with
  | some value => r.set w.1 value
  | none => r.clear w.1

/-- The names to which writes assign values, in order. -/
def assignedNames (ws : List Write) : List String :=
  ws.filterMap fun w => w.2.map fun _ => w.1

variable {r : Attributes} {k : String}

/-! ## One write -/

theorem get?_clear (r : Attributes) (key k : String) :
    (r.clear key).get? k = if k = key then none else r.get? k := by
  rw [get?, clear, lookup_replaceFirst, get?]
  by_cases hk : k = key
  · subst hk
    cases r.entries.lookup k <;> simp
  · rw [if_neg fun h => hk h.1, if_neg hk]

theorem get?_eq_none_of_not_admits (h : ¬ r.Admits k) : r.get? k = none :=
  get?_eq_none_of_notMem fun hmem => h (.inl hmem)

theorem set?_eq_none_iff (r : Attributes) (key value : String) :
    r.set? key value = none ↔ ¬ r.Admits key := by
  rw [set?, Admits, not_or]
  by_cases hmem : key ∈ r.keys
  · simp [contains_iff.2 hmem, hmem]
  · rw [if_neg (mt contains_iff.1 hmem)]
    simp [hmem, isFixed, Option.isSome_iff_ne_none]

@[simp] theorem schema?_write (r : Attributes) (w : Write) : (r.write w).schema? = r.schema? := by
  obtain ⟨key, _ | value⟩ := w
  · rfl
  · exact schema?_set r key value

theorem keys_write (r : Attributes) (w : Write) : (r.write w).keys =
    if r.schema? = none ∧ w.2.isSome ∧ w.1 ∉ r.keys then r.keys ++ [w.1] else r.keys := by
  obtain ⟨key, _ | value⟩ := w
  · rw [if_neg fun h => absurd h.2.1 Bool.false_ne_true]
    exact keys_clear r key
  · rw [write, keys_set]
    exact if_congr (by simp [and_comm]) rfl rfl

theorem IsSound.write (h : r.IsSound) (w : Write) : (r.write w).IsSound := by
  obtain ⟨key, _ | value⟩ := w
  · exact h.clear key
  · exact h.set key value

theorem admits_write {w : Write} : (r.write w).Admits k ↔ r.Admits k := by
  obtain ⟨key, _ | value⟩ := w
  · rw [Admits, write, keys_clear]
    rfl
  · exact admits_set

/-- A write reaches no name but its own, and this one only if the record has a place for it. -/
theorem get?_write (w : Write) (hk : r.Admits k) :
    (r.write w).get? k = if k = w.1 then w.2 else r.get? k := by
  obtain ⟨key, _ | value⟩ := w
  · exact get?_clear r key k
  · rw [write, get?_set]
    exact if_congr (and_iff_left_of_imp fun h => h ▸ hk) rfl rfl

/-! ## Runs of writes -/

theorem schema?_foldl_write (r : Attributes) (ws : List Write) :
    (ws.foldl write r).schema? = r.schema? := by
  induction ws generalizing r with
  | nil => rfl
  | cons w ws ih => rw [List.foldl_cons, ih, schema?_write]

theorem IsSound.foldl_write (h : r.IsSound) (ws : List Write) :
    (ws.foldl Attributes.write r).IsSound := by
  induction ws generalizing r with
  | nil => exact h
  | cons w ws ih => exact ih (h.write w)

theorem admits_foldl_write (ws : List Write) : (ws.foldl write r).Admits k ↔ r.Admits k := by
  induction ws generalizing r with
  | nil => rfl
  | cons w ws ih => rw [List.foldl_cons, ih, admits_write]

/-- The last write to a name decides. -/
theorem get?_foldl_write (ws : List Write) (hk : r.Admits k) :
    (ws.foldl write r).get? k = (ws.reverse.lookup k).getD (r.get? k) := by
  induction ws generalizing r with
  | nil => rfl
  | cons w ws ih =>
    obtain ⟨key, value?⟩ := w
    rw [List.foldl_cons, ih (admits_write.2 hk), get?_write _ hk, List.reverse_cons,
      List.lookup_append]
    by_cases h : k = key
    · subst h
      cases ws.reverse.lookup k <;> simp
    · rw [if_neg h, List.lookup_cons, beq_false_of_ne h]
      cases ws.reverse.lookup k <;> rfl

/-- An open record gets the names that are assigned, each at its first assignment. -/
theorem keys_foldl_write (hopen : r.schema? = none) (ws : List Write) :
    (ws.foldl write r).keys = r.keys ++ ((assignedNames ws).removeAll r.keys).eraseDups := by
  induction ws generalizing r with
  | nil => simp [assignedNames]
  | cons w ws ih =>
    rw [List.foldl_cons, ih (by rwa [schema?_write]), keys_write]
    obtain ⟨key, _ | value⟩ := w
    · rw [if_neg fun h => absurd h.2.1 Bool.false_ne_true]
      rfl
    · have hnames : assignedNames ((key, some value) :: ws) = key :: assignedNames ws := rfl
      rw [hnames, List.cons_removeAll]
      by_cases hmem : key ∈ r.keys
      · rw [if_neg fun h => h.2.2 hmem, if_neg (by simpa using hmem)]
      · have hrest : (assignedNames ws).removeAll (r.keys ++ [key]) =
            ((assignedNames ws).removeAll r.keys).filter fun name => !name == key := by
          simp only [List.removeAll, List.filter_filter]
          exact List.filter_congr fun name _ => by by_cases h : name = key <;> simp [h]
        rw [if_pos ⟨hopen, rfl, hmem⟩, if_pos (by simpa using hmem), List.eraseDups_cons, hrest,
          List.append_assoc, List.singleton_append]

end Attributes

/-! ## Operations on a record -/

/-- An operation on one record. -/
inductive RecordChange where
  | edit (e : AttributeEdit)
  | extend (pairs : List (String × String))
  | merge (other : Attributes)

namespace RecordChange

/-- The record after an operation. -/
def apply : RecordChange → Attributes → Attributes
  | edit e, r => e.apply r
  | extend pairs, r => r.extend pairs
  | merge other, r => r.merge other

/-- The writes that an operation amounts to. What has no value in another record or is null in a
JSON object is not written, and a JSON value that is no object writes nothing. -/
def writes : RecordChange → List Write
  | edit (.set key value) => [(key, some value)]
  | edit (.clear key) => [(key, none)]
  | edit (.merge (.object members)) => (Attributes.storedPairs members).map fun p => (p.1, some p.2)
  | edit (.merge _) => []
  | extend pairs => pairs.map fun p => (p.1, some p.2)
  | merge other => other.assigned.map fun p => (p.1, some p.2)

theorem extend_eq_foldl_write (r : Attributes) (pairs : List (String × String)) :
    r.extend pairs = (pairs.map fun p => (p.1, some p.2)).foldl Attributes.write r := by
  rw [List.foldl_map]
  rfl

theorem apply_eq (c : RecordChange) (r : Attributes) :
    c.apply r = c.writes.foldl Attributes.write r := by
  cases c with
  | edit e =>
    cases e with
    | set key value => rfl
    | clear key => rfl
    | merge value =>
      cases value with
      | object members => exact extend_eq_foldl_write r _
      | null | bool | number | string | array => rfl
  | extend pairs => exact extend_eq_foldl_write r pairs
  | merge other => exact extend_eq_foldl_write r other.assigned

theorem foldl_apply_eq (changes : List RecordChange) (r : Attributes) :
    changes.foldl (fun r c => c.apply r) r = (changes.flatMap writes).foldl Attributes.write r := by
  simp only [apply_eq, List.foldl_flatMap]

end RecordChange

/-! ## Records with a history -/

/-- How a record is made: open, or fixed by a schema without or with its defaults. -/
inductive RecordOrigin where
  | empty
  | blank (schema : Schema)
  | defaults (schema : Schema)

namespace RecordOrigin

/-- The record as it is made. -/
def record : RecordOrigin → Attributes
  | empty => .empty
  | blank schema => .blank schema
  | defaults schema => .defaults schema

/-- The schema that fixes the record. -/
def schema? : RecordOrigin → Option Schema
  | empty => none
  | blank schema => some schema
  | defaults schema => some schema

/-- The value that a name has before anything is written to it. -/
def initial? : RecordOrigin → String → Option String
  | empty, _ => none
  | blank _, _ => none
  | defaults schema, k => (schema.find? fun spec => spec.name == k).bind (·.default?)

/-- The record after some operations, one after the other. -/
def after (o : RecordOrigin) (changes : List RecordChange) : Attributes :=
  changes.foldl (fun r c => c.apply r) o.record

variable (o : RecordOrigin) (changes : List RecordChange)

theorem schema?_record : o.record.schema? = o.schema? := by
  cases o <;> rfl

theorem isSound_record : o.record.IsSound := by
  cases o with
  | empty => exact Attributes.isSound_empty
  | blank schema => exact Attributes.isSound_blank schema
  | defaults schema => exact Attributes.isSound_defaults schema

theorem get?_record (k : String) : o.record.get? k = o.initial? k := by
  cases o with
  | empty => rfl
  | blank schema =>
    rw [record, Attributes.get?, Attributes.blank, initial?]
    cases hfind : (schema.map fun spec => (spec.name, (none : Option String))).lookup k with
    | none => rfl
    | some v? => 
      obtain ⟨spec, -, hspec⟩ := List.mem_map.1 (mem_of_lookup hfind)
      exact (Prod.mk.inj hspec).2.symm
  | defaults schema => exact Attributes.get?_defaults schema k

theorem after_eq : o.after changes =
    (changes.flatMap RecordChange.writes).foldl Attributes.write o.record :=
  RecordChange.foldl_apply_eq changes o.record

theorem schema?_after : (o.after changes).schema? = o.schema? := by
  rw [after_eq, Attributes.schema?_foldl_write, schema?_record]

theorem isSound_after : (o.after changes).IsSound := by
  rw [after_eq]
  exact o.isSound_record.foldl_write _

theorem keys_after_of_open (hopen : o.schema? = none) : (o.after changes).keys =
    (Attributes.assignedNames (changes.flatMap RecordChange.writes)).eraseDups := by
  have hkeys : o.record.keys = [] := by
    cases o with
    | empty => rfl
    | blank | defaults => exact absurd hopen (Option.some_ne_none _)
  rw [after_eq, Attributes.keys_foldl_write (by rwa [schema?_record]), hkeys, List.nil_append,
    List.removeAll_nil]

theorem get?_after {k : String} (hk : o.record.Admits k) : (o.after changes).get? k =
    ((changes.flatMap RecordChange.writes).reverse.lookup k).getD (o.initial? k) := by
  rw [after_eq, Attributes.get?_foldl_write _ hk, get?_record]

theorem admits_after {k : String} : (o.after changes).Admits k ↔ o.record.Admits k := by
  rw [after_eq, Attributes.admits_foldl_write]

theorem after_append (more : List RecordChange) : o.after (changes ++ more) =
    (more.flatMap RecordChange.writes).foldl Attributes.write (o.after changes) := by
  rw [after, List.foldl_append, RecordChange.foldl_apply_eq]
  rfl

/-- A record has no place for the names outside the schema that fixes it. -/
theorem not_admits_after_iff {k : String} : ¬ (o.after changes).Admits k ↔
    ∃ schema, o.schema? = some schema ∧ k ∉ schema.map AttributeSpec.name := by
  have hschema := o.schema?_after changes
  rw [Attributes.Admits, hschema, not_or]
  cases ho : o.schema? with
  | none => simp
  | some schema =>
    rw [(o.isSound_after changes).keys schema (hschema.trans ho)]
    simp

/-- A record refines an ordered map that is read off the writes of its history. -/
theorem after_refines_writes :
    (∀ schema, o.schema? = some schema →
        (o.after changes).keys = schema.map AttributeSpec.name) ∧
      (o.schema? = none → (o.after changes).keys =
          (Attributes.assignedNames (changes.flatMap RecordChange.writes)).eraseDups ∧
        (o.after changes).keys.Nodup ∧
        ∀ more, (o.after changes).keys <+: (o.after (changes ++ more)).keys) ∧
      (∀ k v, ((o.after changes).set? k v = none ↔
          ∃ schema, o.schema? = some schema ∧ k ∉ schema.map AttributeSpec.name) ∧
        ((o.after changes).set? k v = none → (o.after changes).set k v = o.after changes)) ∧
      (∀ k, (o.after changes).get? k = if o.record.Admits k then
        ((changes.flatMap RecordChange.writes).reverse.lookup k).getD (o.initial? k) else none) ∧
      (∀ (c : RecordChange) (k : String), k ∉ c.writes.map Prod.fst →
        (c.apply (o.after changes)).get? k = (o.after changes).get? k) ∧
      (∀ value, (∃ e, (o.after changes).mergeJson value = .error e) ↔
        ∀ members, value ≠ .object members) ∧
      ∀ value e, (o.after changes).mergeJson value = .error e →
        o.after (changes ++ [.edit (.merge value)]) = o.after changes := by
  refine ⟨fun schema hfixed => ?_, fun hopen => ⟨?_, ?_, fun more => ?_⟩, fun k v => ⟨?_, ?_⟩,
    fun k => ?_, fun c k hk => ?_, fun value => ?_, fun value e h => ?_⟩
  · exact (o.isSound_after changes).keys schema (by rw [schema?_after, hfixed])
  · exact o.keys_after_of_open changes hopen
  · exact (o.isSound_after changes).nodup (by rw [schema?_after, hopen])
  · rw [after_append, Attributes.keys_foldl_write (by rw [schema?_after, hopen])]
    exact List.prefix_append _ _
  · rw [Attributes.set?_eq_none_iff, not_admits_after_iff]
  · exact fun h => Attributes.set_of_not_admits ((Attributes.set?_eq_none_iff _ k v).1 h) v
  · split_ifs with hk
    · exact o.get?_after changes hk
    · exact Attributes.get?_eq_none_of_not_admits (mt (o.admits_after changes).1 hk)
  · rw [RecordChange.apply_eq]
    by_cases hadmits : (o.after changes).Admits k
    · rw [Attributes.get?_foldl_write _ hadmits, lookup_eq_none_of_notMem, Option.getD_none]
      rwa [List.map_reverse, List.mem_reverse]
    · rw [Attributes.get?_eq_none_of_not_admits hadmits, Attributes.get?_eq_none_of_not_admits
        (mt (Attributes.admits_foldl_write _).1 hadmits)]
  · cases value with
    | object members => simp [Attributes.mergeJson]
    | null | bool | number | string | array => simp [Attributes.mergeJson]
  · cases value with
    | object members => simp [Attributes.mergeJson] at h
    | null | bool | number | string | array => exact o.after_append changes _

/-- A term loses its form, keeps out a name that its schema does not have, and is not changed by an
array; the same operations give an open record its names in the order of assignment. -/
theorem after_refines_writes_of_term :
    let o := defaults termSchema
    let changes : List RecordChange :=
      [.extend [("lang", "de"), ("name", "page"), ("lang", "fr")], .edit (.clear "form")]
    (o.after changes).keys = ["name", "form", "gender", "gender-form", "match"] ∧
      (o.after changes).get? "form" = none ∧ (o.after changes).get? "name" = some "page" ∧
      (o.after changes).set "lang" "en" = o.after changes ∧
      ((RecordChange.extend [("name", "line")]).apply (o.after changes)).get? "form" = none ∧
      o.after (changes ++ [.edit (.merge (.array []))]) = o.after changes ∧
      (empty.after changes).keys = ["lang", "name"] ∧
      ["lang", "name"] <+: (empty.after (changes ++ [.extend [("form", "short")]])).keys := by
  intro o changes
  obtain ⟨hkeys, -, hset, hget, hframe, -, hmerge⟩ := after_refines_writes o changes
  obtain ⟨-, hopen, -⟩ := after_refines_writes empty changes
  obtain ⟨hnames, -, hprefix⟩ := hopen rfl
  have hlang : (o.after changes).set? "lang" "en" = none := (hset "lang" "en").1.2
    ⟨termSchema, rfl, by decide⟩
  have hform : (o.after changes).get? "form" = none := by
    rw [hget]
    decide
  have horder : (empty.after changes).keys = ["lang", "name"] := by
    rw [hnames]
    decide
  refine ⟨hkeys termSchema rfl, hform, ?_, (hset "lang" "en").2 hlang, ?_, hmerge _ _ rfl, horder,
    horder ▸ hprefix _⟩
  · rw [hget]
    decide
  · rw [hframe _ "form" (by decide), hform]

end RecordOrigin

end CitationLocale
