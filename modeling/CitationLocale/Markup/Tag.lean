import CitationLocale.Markup.Escape
import CitationLocale.Text.Blank

/-!
# The inside of a tag

An open tag holds a name and attributes. Attributes are read one by one, name and value, so of
several faults the first one counts. Offsets count the bytes of the tag from its name on.
-/

namespace CitationLocale.Markup

open Text

/-- What can be wrong with the form of an attribute. -/
inductive AttributeFault where
  | missingEquals (offset : Nat)
  | duplicated (offset earlier : Nat)
  | missingValue (offset : Nat)
  | unquotedValue (offset : Nat)
  | missingQuote (offset : Nat) (quote : Char)
deriving DecidableEq, Repr

/-- What can be wrong with the attributes of a tag: the form of one, or its escaped value. -/
inductive TagFault where
  | form (fault : AttributeFault)
  | value (fault : EscapeFault)
deriving DecidableEq, Repr

/-- The message of an ill-formed attribute. -/
def AttributeFault.message : AttributeFault → String
  | .missingEquals offset =>
    "position " ++ toString offset ++
      ": attribute key must be directly followed by `=` or space"
  | .duplicated offset earlier =>
    "position " ++ toString offset ++
      ": duplicated attribute, previous declaration at position " ++ toString earlier
  | .missingValue offset =>
    "position " ++ toString offset ++ ": `=` must be followed by an attribute value"
  | .unquotedValue offset =>
    "position " ++ toString offset ++ ": attribute value must be enclosed in `\"` or `'`"
  | .missingQuote offset quote =>
    "position " ++ toString offset ++ ": missing closing quote `" ++ String.singleton quote ++
      "` in attribute value"

/-- The characters of a tag's name. -/
def isNameChar (c : Char) : Bool :=
  !isMarkupSpace c

/-- The characters of an attribute's name after the first one, which is always part of it. -/
def isKeyChar (c : Char) : Bool :=
  c != '=' && !isMarkupSpace c

/-- An attribute as it stands in a tag, and what follows it. -/
structure RawAttribute where
  key : List Char
  offset : Nat
  value : List Char
  rest : List Char

/-- Reads the next attribute of a tag of `total` bytes, if there is one. The attributes before it
are given with their offsets. -/
def nextAttribute? (total : Nat) (seen : List (List Char × Nat)) (cs : List Char) :
    Except AttributeFault (Option RawAttribute) :=
  match cs.dropWhile isMarkupSpace with
  | [] => .ok none
  | c :: afterFirst =>
    let key := c :: afterFirst.takeWhile isKeyChar
    let offset := total - byteLength (c :: afterFirst)
    match (afterFirst.dropWhile isKeyChar).dropWhile isMarkupSpace with
    | [] => .error (.missingEquals total)
    | mark :: afterMark =>
      if mark ≠ '=' then .error (.missingEquals (total - byteLength (mark :: afterMark)))
      else
        match seen.lookup key with
        | some earlier => .error (.duplicated offset earlier)
        | none =>
          match afterMark.dropWhile isMarkupSpace with
          | [] => .error (.missingValue total)
          | quote :: quoted =>
            if quote ≠ '"' ∧ quote ≠ '\'' then
              .error (.unquotedValue (total - byteLength (quote :: quoted)))
            else
              match quoted.dropWhile (· != quote) with
              | [] => .error (.missingQuote total quote)
              | _ :: rest => .ok (some ⟨key, offset, quoted.takeWhile (· != quote), rest⟩)

theorem length_rest_lt_of_nextAttribute? {total : Nat} {seen : List (List Char × Nat)}
    {cs : List Char} {a : RawAttribute} (h : nextAttribute? total seen cs = .ok (some a)) :
    a.rest.length < cs.length := by
  unfold nextAttribute? at h
  split at h
  · simp at h
  · next c afterFirst hfirst =>
    have h₁ := length_dropWhile_le isMarkupSpace cs
    rw [hfirst] at h₁
    dsimp only at h
    split at h
    · simp at h
    · next mark afterMark hmark =>
      have h₂ := length_dropWhile_le isMarkupSpace (afterFirst.dropWhile isKeyChar)
      have h₃ := length_dropWhile_le isKeyChar afterFirst
      rw [hmark] at h₂
      split at h
      · simp at h
      · split at h
        · simp at h
        · split at h
          · simp at h
          · next quote quoted hquote =>
            have h₄ := length_dropWhile_le isMarkupSpace afterMark
            rw [hquote] at h₄
            split at h
            · simp at h
            · split at h
              · simp at h
              · next rest hrest =>
                have h₅ := length_dropWhile_le (· != quote) quoted
                rw [hrest] at h₅
                simp only [Except.ok.injEq, Option.some.injEq] at h
                subst h
                simp only [List.length_cons] at *
                omega

/-- Reads all further attributes of a tag. -/
def readAttributes (total : Nat) (seen : List (List Char × Nat)) (cs : List Char) :
    Except TagFault (List (String × String)) :=
  match _hnext : nextAttribute? total seen cs with
  | .error fault => .error (.form fault)
  | .ok none => .ok []
  | .ok (some a) =>
    match unescape a.value with
    | .error fault => .error (.value fault)
    | .ok value =>
      (readAttributes total ((a.key, a.offset) :: seen) a.rest).map
        ((String.ofList a.key, String.ofList value) :: ·)
termination_by cs.length
decreasing_by exact length_rest_lt_of_nextAttribute? _hnext

/-- Reads the inside of an open tag, without the slash of an empty one. -/
def readTag (body : List Char) : Except TagFault (String × List (String × String)) :=
  (readAttributes (byteLength body) [] (body.dropWhile isNameChar)).map
    (String.ofList (body.takeWhile isNameChar), ·)

/-- The name in a close tag: trailing space does not belong to it, unless it is all there is. -/
def closingName (body : List Char) : List Char :=
  if body.all isMarkupSpace then body
  else (body.reverse.dropWhile isMarkupSpace).reverse

end CitationLocale.Markup
