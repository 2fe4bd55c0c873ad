import Mathlib.Data.List.Basic
import CitationLocale.Markup.Escape
import CitationLocale.Proofs.Result

/-!
# What escaped text stands for

Escaped text is a row of characters and complete references, each of which stands for one character
(`Decodes`). Reading yields just what the row stands for (`unescape_eq_ok`), so a text that does
not end inside a reference is read independently of what follows it (`decoded?_append`).
-/

namespace CitationLocale.Markup

/-- What escaped text stands for. -/
inductive Decodes : List Char → List Char → Prop
  | nil : Decodes [] []
  | char {c : Char} {cs ds : List Char} : c ≠ '&' → Decodes cs ds → Decodes (c :: cs) (c :: ds)
  | reference {name rest ds : List Char} {d : Char} : name.all isEntityChar = true →
      (∀ start stop, readEntity start stop name = .ok d) → Decodes rest ds →
      Decodes ('&' :: (name ++ ';' :: rest)) (d :: ds)

/-- Whether the last reference of a text lacks its end. -/
def EndsInReference (cs : List Char) : Prop :=
  ∃ before name, cs = before ++ '&' :: name ∧ ';' ∉ name

theorem EndsInReference.append {cs : List Char} (h : EndsInReference cs) (before : List Char) :
    EndsInReference (before ++ cs) := by
  obtain ⟨front, name, rfl, hname⟩ := h
  exact ⟨before ++ front, name, (List.append_assoc _ _ _).symm, hname⟩

theorem not_endsInReference_append {cs cs' : List Char} (h : ¬ EndsInReference cs)
    (h' : ¬ EndsInReference cs') : ¬ EndsInReference (cs ++ cs') := by
  rintro ⟨before, name, hcs, hname⟩
  rcases List.append_eq_append_iff.1 hcs with ⟨m, rfl, rfl⟩ | ⟨m, rfl, hm⟩
  · exact h' ⟨m, name, rfl, hname⟩
  · rcases List.cons_eq_append_iff.1 hm with ⟨rfl, rfl⟩ | ⟨m, rfl, rfl⟩
    · exact h' ⟨[], name, rfl, hname⟩
    · exact h ⟨before, m, rfl, fun hc => hname (List.mem_append_left _ hc)⟩

theorem not_mem_of_all_isEntityChar {name : List Char} (h : name.all isEntityChar = true) :
    '&' ∉ name ∧ ';' ∉ name := by
  rw [List.all_eq_true] at h
  exact ⟨fun hc => absurd (h _ hc) (by decide), fun hc => absurd (h _ hc) (by decide)⟩

/-! ## Reading -/

/-- The offsets of a reference matter for its faults only. -/
theorem readEntity_eq_ok {start stop start' stop' : Nat} {name : List Char} {d : Char}
    (h : readEntity start stop name = .ok d) : readEntity start' stop' name = .ok d := by
  unfold readEntity at h ⊢
  split
  · exact h
  · cases hname : namedEntity? name <;> simp_all

theorem Decodes.unescapeFrom {cs ds : List Char} (h : Decodes cs ds) (total position : Nat) :
    unescapeFrom total position cs = .ok ds := by
  induction h generalizing position with
  | nil => rw [Markup.unescapeFrom]
  | char hc _ ih =>
    rw [unescapeFrom_cons _ _ hc, ih]
    rfl
  | reference hname hread _ ih =>
    rw [unescapeFrom_entity _ _ hname]
    simp only [hread, ih]
    rfl

theorem decodes_of_unescapeFrom {total position : Nat} {cs ds : List Char}
    (h : unescapeFrom total position cs = .ok ds) : Decodes cs ds := by
  fun_induction unescapeFrom total position cs generalizing ds with
  | case1 =>
    obtain rfl := Except.ok.inj h
    exact .nil
  | case2 => simp at h
  | case3 position cs rest name stop hdrop =>
    rename_i ih
    obtain ⟨d, hread, h⟩ := Result.bind_eq_ok.1 h
    obtain ⟨decoded, hrest, h⟩ := Result.bind_eq_ok.1 h
    obtain rfl := Except.ok.inj h
    have hcs : cs = name ++ ';' :: rest := by rw [← hdrop, List.takeWhile_append_dropWhile]
    rw [hcs]
    exact .reference List.all_takeWhile (fun _ _ => readEntity_eq_ok hread) (ih hrest)
  | case4 => simp at h
  | case5 position c cs hc ih =>
    obtain ⟨decoded, hrest, h⟩ := Result.bind_eq_ok.1 h
    obtain rfl := Except.ok.inj h
    exact .char hc (ih hrest)

/-- Reading escaped text yields what it stands for. -/
theorem unescape_eq_ok {cs ds : List Char} : unescape cs = .ok ds ↔ Decodes cs ds :=
  ⟨decodes_of_unescapeFrom, fun h => h.unescapeFrom _ _⟩

/-- What a text stands for, if it is well escaped. -/
def decoded? (cs : List Char) : Option (List Char) :=
  (unescape cs).toOption

theorem decoded?_eq_some {cs ds : List Char} : decoded? cs = some ds ↔ Decodes cs ds := by
  rw [← unescape_eq_ok, decoded?]
  cases unescape cs <;> simp [Except.toOption]

@[simp] theorem decoded?_nil : decoded? [] = some [] :=
  decoded?_eq_some.2 .nil

/-! ## Parts of a text -/

theorem Decodes.append {cs ds cs' ds' : List Char} (h : Decodes cs ds) (h' : Decodes cs' ds') :
    Decodes (cs ++ cs') (ds ++ ds') := by
  induction h with
  | nil => exact h'
  | char hc _ ih => exact .char hc ih
  | reference hname hread _ ih =>
    rw [List.cons_append, List.append_assoc, List.cons_append]
    exact .reference hname hread ih

/-- Well escaped text ends outside references. -/
theorem Decodes.not_endsInReference {cs ds : List Char} (h : Decodes cs ds) :
    ¬ EndsInReference cs := by
  induction h with
  | nil => rintro ⟨before, name, h, -⟩; simp at h
  | @char c cs ds hc _ ih =>
    rintro ⟨before, name, h, hend⟩
    rcases List.cons_eq_append_iff.1 h with ⟨-, h⟩ | ⟨before', -, h⟩
    · exact hc (List.cons.inj h).1.symm
    · exact ih ⟨before', name, h, hend⟩
  | @reference name rest ds d hname _ _ ih =>
    rintro ⟨before, name', h, hend⟩
    rcases List.cons_eq_append_iff.1 h with ⟨-, h⟩ | ⟨before', -, h⟩
    · obtain rfl := (List.cons.inj h).2
      exact hend (by simp)
    rcases List.append_eq_append_iff.1 h with ⟨m, -, h⟩ | ⟨m, hm, h⟩
    · rcases List.cons_eq_append_iff.1 h with ⟨-, h⟩ | ⟨m', -, h⟩
      · exact absurd (List.cons.inj h).1 (by decide)
      · exact ih ⟨m', name', h, hend⟩
    · rcases List.cons_eq_append_iff.1 h with ⟨-, h⟩ | ⟨m', rfl, -⟩
      · exact absurd (List.cons.inj h).1 (by decide)
      · rw [hm] at hname
        exact (not_mem_of_all_isEntityChar hname).1 (by simp)

/-- Text that is cut outside references is well escaped only if both parts are. -/
theorem Decodes.exists_of_append {cs cs' ds : List Char} (h : Decodes (cs ++ cs') ds)
    (hend : ¬ EndsInReference cs) :
    ∃ front back, Decodes cs front ∧ Decodes cs' back ∧ ds = front ++ back := by
  generalize hwhole : cs ++ cs' = whole at h
  induction h generalizing cs with
  | nil =>
    obtain ⟨rfl, rfl⟩ := List.append_eq_nil_iff.1 hwhole
    exact ⟨[], [], .nil, .nil, rfl⟩
  | @char c rest ds hc hrest ih =>
    rcases List.append_eq_cons_iff.1 hwhole with ⟨rfl, rfl⟩ | ⟨cs, rfl, rfl⟩
    · exact ⟨[], c :: ds, .nil, .char hc hrest, rfl⟩
    · obtain ⟨front, back, hfront, hback, rfl⟩ := ih (mt (·.append [c]) hend) rfl
      exact ⟨c :: front, back, .char hc hfront, hback, rfl⟩
  | @reference name rest ds d hname hread hrest ih =>
    rcases List.append_eq_cons_iff.1 hwhole with ⟨rfl, rfl⟩ | ⟨cs, rfl, htail⟩
    · exact ⟨[], d :: ds, .nil, .reference hname hread hrest, rfl⟩
    have hopen {before : List Char} (hbefore : before.all isEntityChar = true) :
        EndsInReference ('&' :: before) :=
      ⟨[], before, rfl, (not_mem_of_all_isEntityChar hbefore).2⟩
    rcases List.append_eq_append_iff.1 htail with ⟨m, rfl, h⟩ | ⟨m, rfl, h⟩
    · rcases List.cons_eq_append_iff.1 h with ⟨rfl, -⟩ | ⟨cs, rfl, rfl⟩
      · exact absurd (hopen (by simpa using hname)) hend
      · have hcs : ¬ EndsInReference cs := fun h =>
          hend (by simpa using h.append ('&' :: (name ++ [';'])))
        obtain ⟨front, back, hfront, hback, rfl⟩ := ih hcs rfl
        exact ⟨d :: front, back, .reference hname hread hfront, hback, rfl⟩
    · rw [List.all_append, Bool.and_eq_true] at hname
      exact absurd (hopen hname.1) hend

/-- A text that does not end inside a reference is read independently of what follows it. -/
theorem decoded?_append {cs : List Char} (hend : ¬ EndsInReference cs) (cs' : List Char) :
    decoded? (cs ++ cs') =
      (decoded? cs).bind fun front => (decoded? cs').map fun back => front ++ back := by
  apply Option.ext
  intro ds
  simp only [Option.bind_eq_some_iff, Option.map_eq_some_iff, decoded?_eq_some]
  constructor
  · intro h
    obtain ⟨front, back, hfront, hback, rfl⟩ := h.exists_of_append hend
    exact ⟨front, hfront, back, hback, rfl⟩
  · rintro ⟨front, hfront, back, hback, rfl⟩
    exact hfront.append hback

end CitationLocale.Markup
