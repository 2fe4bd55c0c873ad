import CitationLocale.Proofs.Source
import CitationLocale.Proofs.WrittenTag

/-!
# Reading written fragments

A row of fragments whose names are XML names and whose close tags match is read without a fault,
and its tokens are the fragments again, with neighbouring texts joined and empty texts left out
(`scan_written`). Texts and values may hold any characters. Only a tag in which an attribute comes
twice is not read (`exists_fault_of_not_writable`).
-/

namespace CitationLocale.Markup

/-! ## Fragments as tokens -/

/-- The token that a fragment is read as. -/
def Fragment.token : Fragment → Token
  | .start name attributes => .start name attributes
  | .empty name attributes => .empty name attributes
  | .close name => .close name
  | .text content => .text content

/-- Whether the names in a fragment can be read again. -/
def Fragment.IsWritable : Fragment → Prop
  | .start name attributes => IsTag name attributes
  | .empty name attributes => IsTag name attributes
  | .close name => IsXmlName name
  | .text _ => True

/-- Whether all names in a fragment are XML names; one of them may come twice. -/
def Fragment.IsNamed : Fragment → Prop
  | .start name attributes => IsXmlName name ∧ ∀ a ∈ attributes, IsXmlName a.1
  | .empty name attributes => IsXmlName name ∧ ∀ a ∈ attributes, IsXmlName a.1
  | .close name => IsXmlName name
  | .text _ => True

theorem Fragment.IsWritable.isNamed {f : Fragment} (h : f.IsWritable) : f.IsNamed := by
  cases f with
  | start | empty => exact ⟨h.name, h.keys⟩
  | close => exact h
  | text => trivial

/-- Whether the inside of a tag is read as its name and its attributes. -/
def Fragment.IsReadable : Fragment → Prop
  | .start name attributes => Markup.IsReadable name attributes
  | .empty name attributes => Markup.IsReadable name attributes
  | .close name => ∀ c ∈ name.toList, isNameChar c = true
  | .text _ => True

/-- Whether a tag looks like another one: a start tag that ends like a tag that closes itself, or a
tag that closes itself and starts like a close tag. -/
def Fragment.IsMisleading : Fragment → Prop
  | .start name attributes => attributes = [] ∧ name.toList.getLast? = some '/'
  | .empty name attributes => name = "" ∧ attributes = []
  | _ => False

theorem Fragment.IsWritable.isReadable {f : Fragment} (h : f.IsWritable) : f.IsReadable := by
  cases f with
  | start | empty => exact IsTag.isReadable h
  | close => exact h.isNameChar
  | text => trivial

/-- No tag with an XML name misleads. -/
theorem Fragment.IsNamed.not_isMisleading {f : Fragment} (h : f.IsNamed) : ¬ f.IsMisleading := by
  cases f with
  | start => exact fun hlooks => h.1.getLast?_ne hlooks.2
  | empty => exact fun hlooks => h.1.1 hlooks.1
  | close | text => exact id

/-- Puts text before some fragments. -/
def putText (s : String) : List Fragment → List Fragment
  | .text t :: fs => .text (s ++ t) :: fs
  | fs => if s = "" then fs else .text s :: fs

/-- Joins neighbouring texts and leaves out empty ones. -/
def joinTexts : List Fragment → List Fragment
  | [] => []
  | .text s :: fs => putText s (joinTexts fs)
  | f :: fs => f :: joinTexts fs

/-- Whether no text is empty or stands beside another text. -/
def Joined : List Fragment → Prop
  | [] => True
  | .text s :: fs => s ≠ "" ∧ (∀ t, fs.head? ≠ some (.text t)) ∧ Joined fs
  | _ :: fs => Joined fs

theorem Joined.tail {f : Fragment} {fs : List Fragment} (h : Joined (f :: fs)) : Joined fs := by
  cases f with
  | text s => exact h.2.2
  | start | empty | close => exact h

theorem putText_cases (s : String) (fs : List Fragment) :
    (∃ t gs, fs = .text t :: gs ∧ putText s fs = .text (s ++ t) :: gs) ∨
      (∀ t, fs.head? ≠ some (.text t)) ∧ putText s fs = if s = "" then fs else .text s :: fs := by
  obtain _ | ⟨f, fs⟩ := fs
  · right; simp [putText]
  cases f with
  | text t => left; exact ⟨t, fs, rfl, rfl⟩
  | start | empty | close => right; simp [putText]

theorem joined_putText (s : String) {fs : List Fragment} (h : Joined fs) :
    Joined (putText s fs) := by
  rcases putText_cases s fs with ⟨t, gs, rfl, hput⟩ | ⟨hhead, hput⟩
  · rw [hput]
    exact ⟨fun he => h.1 (String.append_eq_empty_iff.1 he).2, h.2⟩
  · rw [hput]
    split_ifs with hs
    · exact h
    · exact ⟨hs, hhead, h⟩

theorem joined_joinTexts (fs : List Fragment) : Joined (joinTexts fs) := by
  induction fs with
  | nil => trivial
  | cons f fs ih =>
    cases f with
    | text s => exact joined_putText s ih
    | start | empty | close => exact ih

theorem escape_append (cs ds : List Char) : escape (cs ++ ds) = escape cs ++ escape ds :=
  List.flatMap_append

theorem chars_putText (s : String) (fs : List Fragment) :
    (putText s fs).flatMap Fragment.chars = escape s.toList ++ fs.flatMap Fragment.chars := by
  rcases putText_cases s fs with ⟨t, gs, rfl, hput⟩ | ⟨-, hput⟩
  · simp [hput, Fragment.chars, escape_append]
  · rw [hput]
    split_ifs with hs
    · simp [hs, escape]
    · rfl

/-- Joining texts does not change what is written. -/
theorem chars_joinTexts (fs : List Fragment) :
    (joinTexts fs).flatMap Fragment.chars = fs.flatMap Fragment.chars := by
  induction fs with
  | nil => rfl
  | cons f fs ih =>
    cases f with
    | text s => rw [joinTexts, chars_putText, ih]; rfl
    | start | empty | close => simp [joinTexts, ih]

theorem openAfter_putText (s : String) (fs : List Fragment) (names : List String) :
    openAfter names ((putText s fs).map Fragment.token) =
      openAfter names (fs.map Fragment.token) := by
  rcases putText_cases s fs with ⟨t, gs, rfl, hput⟩ | ⟨-, hput⟩
  · rw [hput]; rfl
  · rw [hput]
    split_ifs <;> rfl

theorem openAfter_joinTexts (fs : List Fragment) (names : List String) :
    openAfter names ((joinTexts fs).map Fragment.token) =
      openAfter names (fs.map Fragment.token) := by
  induction fs generalizing names with
  | nil => rfl
  | cons f fs ih =>
    cases f with
    | text s => rw [joinTexts, openAfter_putText, ih]; rfl
    | start | empty | close => simp [joinTexts, ih]

section

variable {P : Fragment → Prop} (htext : ∀ s, P (.text s))
include htext

theorem forall_putText (s : String) (fs : List Fragment) :
    (∀ f ∈ putText s fs, P f) ↔ ∀ f ∈ fs, P f := by
  rcases putText_cases s fs with ⟨t, gs, rfl, hput⟩ | ⟨-, hput⟩
  · simp only [hput, List.forall_mem_cons, htext, true_and]
  · rw [hput]
    split_ifs
    · rfl
    · simp only [List.forall_mem_cons, htext, true_and]

/-- Joining texts makes no difference to what holds of all fragments, if it holds of every text. -/
theorem forall_joinTexts (fs : List Fragment) : (∀ f ∈ joinTexts fs, P f) ↔ ∀ f ∈ fs, P f := by
  induction fs with
  | nil => rfl
  | cons f fs ih =>
    cases f with
    | text s =>
      simp only [joinTexts, forall_putText htext, ih, List.forall_mem_cons, htext, true_and]
    | start | empty | close => simp only [joinTexts, List.forall_mem_cons, ih]

end

/-! ## Scanning -/

/-- One piece further in a document. -/
theorem scanFrom_of_cut (opened : List (List Char)) (position : Nat) {cs rest : List Char}
    {piece : Piece} (hne : cs ≠ []) (hcut : Piece.cut cs = .ok (piece, rest)) :
    ∃ stop, scanFrom opened position cs =
      match stepPiece opened position stop piece with
      | .error fault => ⟨[], some fault⟩
      | .ok step =>
        ⟨step.token :: (scanFrom step.opened stop rest).tokens,
          (scanFrom step.opened stop rest).fault?⟩ := by
  obtain ⟨c, cs, rfl⟩ := List.exists_cons_of_ne_nil hne
  refine ⟨position + byteLength piece.source, ?_⟩
  rw [scanFrom]
  split
  · next fault h => simp [hcut] at h
  · next piece' rest' h =>
    obtain ⟨rfl, rfl⟩ : piece = piece' ∧ rest = rest' := by simpa [hcut] using h
    rfl

/-- Characters without `<` up to the next tag are one run of text. -/
theorem cut_text {cs rest : List Char} (hne : cs ≠ []) (hcs : '<' ∉ cs)
    (hrest : ∀ c ∈ rest.head?, c = '<') : Piece.cut (cs ++ rest) = .ok (.text cs, rest) := by
  have hpos : ∀ c ∈ cs, (c != '<') = true := by
    intro c hc
    rw [bne_iff_ne]
    rintro rfl
    exact hcs hc
  have htake : (cs ++ rest).takeWhile (· != '<') = cs := by
    rw [List.takeWhile_append_of_pos hpos]
    cases rest with
    | nil => simp
    | cons c rest =>
      obtain rfl := hrest c rfl
      rw [List.takeWhile_cons_of_neg (by decide), List.append_nil]
  have hdrop : (cs ++ rest).dropWhile (· != '<') = rest := by
    rw [List.dropWhile_append_of_pos hpos]
    cases rest with
    | nil => rfl
    | cons c rest =>
      obtain rfl := hrest c rfl
      rw [List.dropWhile_cons_of_neg (by decide)]
  obtain ⟨c, cs, rfl⟩ := List.exists_cons_of_ne_nil hne
  have hc : c ≠ '<' := by
    rintro rfl
    exact hcs (by simp)
  rw [List.cons_append] at htake hdrop ⊢
  rw [Piece.cut]
  · rw [htake, hdrop]
  · rintro markup h
    exact hc (List.cons.inj h).1

theorem escape_ne_nil {s : String} (h : s ≠ "") : escape s.toList ≠ [] := by
  obtain ⟨c, cs, hcs⟩ := List.exists_cons_of_ne_nil (mt String.toList_eq_nil_iff.1 h)
  rw [hcs, escape, List.flatMap_cons]
  unfold escapeChar
  split_ifs <;> simp

/-- What follows a text starts with a tag. -/
theorem head_chars {fs : List Fragment} (h : ∀ t, fs.head? ≠ some (.text t)) :
    ∀ c ∈ (fs.flatMap Fragment.chars).head?, c = '<' := by
  obtain _ | ⟨f, fs⟩ := fs
  · simp
  cases f with
  | text t => exact absurd rfl (h t)
  | start | empty | close => simp [Fragment.chars]

theorem chars_ne_nil {f : Fragment} (htext : ∀ s, f = .text s → s ≠ "") : f.chars ≠ [] := by
  cases f with
  | text s => exact escape_ne_nil (htext s rfl)
  | start | empty | close => simp [Fragment.chars]

/-! ## Fragments as pieces -/

/-- The piece that a fragment is cut off as. A tag without name and attributes that closes itself
is written like a close tag. -/
def Fragment.piece : Fragment → Piece
  | .start name attributes => .openTag (tagBody name attributes)
  | .empty name attributes =>
    if name = "" ∧ attributes = [] then .closeTag []
    else .openTag (tagBody name attributes ++ ['/'])
  | .close name => .closeTag name.toList
  | .text content => .text (escape content.toList)

theorem Fragment.piece_empty {name : String} {attributes : List (String × String)}
    (h : ¬ (empty name attributes).IsMisleading) :
    (empty name attributes).piece = .openTag (tagBody name attributes ++ ['/']) :=
  if_neg h

/-- A fragment with XML names is cut off as one piece. -/
theorem Fragment.cut_chars {f : Fragment} (hf : f.IsNamed) {rest : List Char}
    (htext : ∀ s, f = .text s → s ≠ "" ∧ ∀ c ∈ rest.head?, c = '<') :
    Piece.cut (f.chars ++ rest) = .ok (f.piece, rest) := by
  cases f with
  | text s =>
    obtain ⟨hs, hrest⟩ := htext s rfl
    exact cut_text (escape_ne_nil hs) (not_mem_escape (by decide) s.toList) hrest
  | start name attributes => exact cut_start hf.1 hf.2 rest
  | empty name attributes =>
    rw [piece_empty hf.not_isMisleading]
    exact cut_empty hf.1 hf.2 rest
  | close name => exact cut_close hf rest

/-- A fragment that does not look like another one is read as its token. -/
theorem Fragment.stepPiece_piece {f : Fragment} (hf : f.IsReadable) (hplain : ¬ f.IsMisleading)
    {names names' : List String} (hopen : openStep names f.token = some names') (start stop : Nat) :
    stepPiece (names.map String.toList) start stop f.piece =
      .ok ⟨f.token, names'.map String.toList⟩ := by
  cases f with
  | start name attributes =>
    obtain rfl := Option.some.inj hopen
    exact stepOpenTag_start hf (not_and.1 hplain) _ stop
  | empty name attributes =>
    obtain rfl := Option.some.inj hopen
    rw [piece_empty hplain]
    exact stepOpenTag_empty hf _ stop
  | close name =>
    obtain _ | ⟨expected, outer⟩ := names
    · simp [token, openStep] at hopen
    · simp only [token, openStep] at hopen
      split_ifs at hopen with hname
      obtain rfl := hname
      obtain rfl := Option.some.inj hopen
      simp [piece, stepPiece, stepCloseTag, closingName_name hf, token]
  | text content =>
    obtain rfl := Option.some.inj hopen
    simp [piece, stepPiece, unescape_escape, token]

/-- A tag in which an attribute comes twice cannot be read. -/
theorem Fragment.exists_fault_stepPiece {f : Fragment} (hf : f.IsNamed) (hrepeated : ¬ f.IsWritable)
    (opened : List (List Char)) (start stop : Nat) :
    ∃ fault, stepPiece opened start stop f.piece = .error fault := by
  cases f with
  | start name attributes =>
    exact (exists_fault_stepOpenTag hf.1 hf.2 (fun h => hrepeated ⟨hf.1, hf.2, h⟩) opened stop).1
  | empty name attributes =>
    rw [piece_empty hf.not_isMisleading]
    exact (exists_fault_stepOpenTag hf.1 hf.2 (fun h => hrepeated ⟨hf.1, hf.2, h⟩) opened stop).2
  | close | text => exact absurd hf hrepeated

/-! ## Joined fragments -/

/-- One fragment further in a document. -/
theorem scanFrom_cons {f : Fragment} {fs : List Fragment} (hjoined : Joined (f :: fs))
    (hf : f.IsNamed) {names names' : List String} (hopen : openStep names f.token = some names')
    (position : Nat) :
    ∃ stop,
      let whole := scanFrom (names.map String.toList) position ((f :: fs).flatMap Fragment.chars)
      let later := scanFrom (names'.map String.toList) stop (fs.flatMap Fragment.chars)
      (f.IsWritable → whole = ⟨f.token :: later.tokens, later.fault?⟩) ∧
        (¬ f.IsWritable → whole.fault?.isSome) := by
  have htext : ∀ s, f = .text s → s ≠ "" ∧ ∀ c ∈ (fs.flatMap Fragment.chars).head?, c = '<' := by
    rintro s rfl
    exact ⟨hjoined.1, head_chars hjoined.2.1⟩
  have hne : f.chars ++ fs.flatMap Fragment.chars ≠ [] :=
    List.append_ne_nil_of_left_ne_nil (chars_ne_nil fun s hs => (htext s hs).1) _
  obtain ⟨stop, hscan⟩ :=
    scanFrom_of_cut (names.map String.toList) position hne (Fragment.cut_chars hf htext)
  refine ⟨stop, fun h => ?_, fun h => ?_⟩
  · rw [List.flatMap_cons, hscan,
      Fragment.stepPiece_piece h.isReadable hf.not_isMisleading hopen position stop]
  · obtain ⟨fault, hfault⟩ := Fragment.exists_fault_stepPiece hf h _ position stop
    rw [List.flatMap_cons, hscan, hfault]
    rfl

theorem exists_openStep {f : Fragment} {fs : List Fragment} {names : List String}
    (h : (openAfter names ((f :: fs).map Fragment.token)).isSome) :
    ∃ names', openStep names f.token = some names' ∧
      (openAfter names' (fs.map Fragment.token)).isSome := by
  rw [List.map_cons, openAfter_cons] at h
  obtain ⟨later, hlater⟩ := Option.isSome_iff_exists.1 h
  obtain ⟨names', hnames, hlater⟩ := Option.bind_eq_some_iff.1 hlater
  exact ⟨names', hnames, Option.isSome_iff_exists.2 ⟨later, hlater⟩⟩

/-- Joined fragments are read one token each. -/
theorem scanFrom_joined {fs : List Fragment} (hjoined : Joined fs)
    (hwritable : ∀ f ∈ fs, f.IsWritable) {names : List String}
    (hopen : (openAfter names (fs.map Fragment.token)).isSome) (position : Nat) :
    scanFrom (names.map String.toList) position (fs.flatMap Fragment.chars) =
      ⟨fs.map Fragment.token, none⟩ := by
  induction fs generalizing names position with
  | nil =>
    rw [List.flatMap_nil, scanFrom]
    rfl
  | cons f fs ih =>
    obtain ⟨hf, hfs⟩ := List.forall_mem_cons.1 hwritable
    obtain ⟨names', hnames, hlater⟩ := exists_openStep hopen
    obtain ⟨stop, hstep, -⟩ := scanFrom_cons hjoined hf.isNamed hnames position
    rw [hstep hf, ih hjoined.tail hfs hlater]
    rfl

/-- Joined fragments are read up to the first one that cannot be read. -/
theorem isSome_fault_scanFrom {fs : List Fragment} (hjoined : Joined fs)
    (hnamed : ∀ f ∈ fs, f.IsNamed) (hrepeated : ¬ ∀ f ∈ fs, f.IsWritable) {names : List String}
    (hopen : (openAfter names (fs.map Fragment.token)).isSome) (position : Nat) :
    (scanFrom (names.map String.toList) position (fs.flatMap Fragment.chars)).fault?.isSome := by
  induction fs generalizing names position with
  | nil => exact absurd (fun f hf => absurd hf List.not_mem_nil) hrepeated
  | cons f fs ih =>
    obtain ⟨hf, hfs⟩ := List.forall_mem_cons.1 hnamed
    obtain ⟨names', hnames, hlater⟩ := exists_openStep hopen
    obtain ⟨stop, hread, hunread⟩ := scanFrom_cons hjoined hf hnames position
    by_cases hwritable : f.IsWritable
    · rw [hread hwritable]
      refine ih hjoined.tail hfs (fun h => hrepeated ?_) hlater stop
      exact List.forall_mem_cons.2 ⟨hwritable, h⟩
    · exact hunread hwritable

section

variable {fs : List Fragment} (hopen : (openAfter [] (fs.map Fragment.token)).isSome)
  (hhead : (fs.flatMap Fragment.chars).head? = some '<')

include hhead in
/-- Written fragments are scanned like the same fragments with neighbouring texts joined. -/
theorem scan_chars : scan (String.ofList (fs.flatMap Fragment.chars)) =
    scanFrom [] 0 ((joinTexts fs).flatMap Fragment.chars) := by
  have hmark : withoutByteOrderMark (fs.flatMap Fragment.chars) = fs.flatMap Fragment.chars := by
    cases hchars : fs.flatMap Fragment.chars with
    | nil => rfl
    | cons c cs =>
      obtain rfl : c = '<' := by simpa [hchars] using hhead
      rfl
  rw [scan, String.toList_ofList, hmark, chars_joinTexts]

include hopen hhead

/-- Written fragments are read as themselves, with neighbouring texts joined. -/
theorem scan_written (hwritable : ∀ f ∈ fs, f.IsWritable) :
    scan (String.ofList (fs.flatMap Fragment.chars)) =
      ⟨(joinTexts fs).map Fragment.token, none⟩ := by
  rw [scan_chars hhead]
  refine scanFrom_joined (joined_joinTexts fs) ?_ (by rwa [openAfter_joinTexts]) 0
  exact (forall_joinTexts (fun _ => trivial) fs).2 hwritable

/-- A document with a tag in which an attribute comes twice is not read to its end. -/
theorem exists_fault_of_not_writable (hnamed : ∀ f ∈ fs, f.IsNamed)
    (hrepeated : ¬ ∀ f ∈ fs, f.IsWritable) :
    (scan (String.ofList (fs.flatMap Fragment.chars))).fault?.isSome := by
  rw [scan_chars hhead]
  refine isSome_fault_scanFrom (joined_joinTexts fs) ?_ ?_ (by rwa [openAfter_joinTexts]) 0
  · exact (forall_joinTexts (fun _ => trivial) fs).2 hnamed
  · rwa [forall_joinTexts fun _ => trivial]

end

end CitationLocale.Markup
