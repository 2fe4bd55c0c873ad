import CitationLocale.Proofs.Creation

/-!
# The two stacks of a reader

A tokenizer keeps the names of the start tags that wait for their end tags, and an end tag that does
not match is a fault to it. The builder keeps a node for each of these start tags, in a stack of
its own. Reading a document goes round a loop that asks for one token and hands it to the builder.

Whenever a round begins, the open nodes have the names of the open start tags, in order
(`Tokenizer.Reached.names_eq`): a token that the tokenizer lets through is one that the builder
expects. So the builder never objects to an end tag, and a document that ends too early lacks the
end tag of the innermost start tag that is open (`Node.parse_in_lockstep`).
-/

namespace CitationLocale

open Markup

/-! ## Reading with a tokenizer -/

/-- A source of tokens that watches over the tags. -/
structure Tokenizer where
  State : Type
  /-- The next token and the state after it, the end of the document, or a fault. -/
  next? : State → Except Fault (Option (Token × State))
  /-- The names of the open start tags, innermost first. -/
  opened : State → List String
  /-- Start tags are opened and end tags close them. An end tag that does not match the innermost
  open start tag is reported as a fault, so it is no token. -/
  openStep_opened : ∀ {s s' t}, next? s = .ok (some (t, s')) →
    openStep (opened s) t = some (opened s')
  /-- A number that gets smaller with every token. -/
  bound : State → Nat
  bound_lt : ∀ {s s' t}, next? s = .ok (some (t, s')) → bound s' < bound s

namespace Tokenizer

variable (tk : Tokenizer) (r : Registry)

/-- Reads on from a state of the tokenizer and a state of the builder. -/
def parseFrom (s : tk.State) (b : Builder) : Except Error Node :=
  match _h : tk.next? s with
  | .error fault => .error fault.error
  | .ok none => b.finish
  | .ok (some (t, s')) => do
    let b ← b.step r t
    parseFrom s' b
termination_by tk.bound s
decreasing_by exact tk.bound_lt ‹tk.next? s = _›

/-- Reads a document from the first state of its tokenizer on. -/
def parse (start : tk.State) : Except Error Node :=
  tk.parseFrom r start .empty

/-- The states of the tokenizer and of the builder with which the rounds of the loop begin. -/
inductive Reached (start : tk.State) : tk.State → Builder → Prop
  | start : Reached start start .empty
  | round {s s' : tk.State} {b b' : Builder} {t : Token} : Reached start s b →
      tk.next? s = .ok (some (t, s')) → b.step r t = .ok b' → Reached start s' b'

/-- Whether a round ends the loop with an error: with a fault, with a token that the builder
refuses, or with the end of the document. -/
def StopsWith (s : tk.State) (b : Builder) (e : Error) : Prop :=
  match tk.next? s with
  | .error fault => fault.error = e
  | .ok none => b.finish = .error e
  | .ok (some (t, _)) => b.step r t = .error e

variable {tk r} {start s s' : tk.State} {b : Builder}

theorem parseFrom_of_fault {fault : Fault} (h : tk.next? s = .error fault) :
    tk.parseFrom r s b = .error fault.error := by
  rw [parseFrom]
  split <;> simp_all

theorem parseFrom_of_end (h : tk.next? s = .ok none) : tk.parseFrom r s b = b.finish := by
  rw [parseFrom]
  split <;> simp_all

theorem parseFrom_of_token {t : Token} (h : tk.next? s = .ok (some (t, s'))) :
    tk.parseFrom r s b = b.step r t >>= tk.parseFrom r s' := by
  rw [parseFrom]
  split <;> simp_all

/-- Reading on from a round gives what the whole document gives. -/
theorem Reached.parseFrom_eq (h : tk.Reached r start s b) :
    tk.parseFrom r s b = tk.parse r start := by
  induction h with
  | start => rfl
  | round _ hnext hstep ih => rw [← ih, parseFrom_of_token hnext, hstep, Result.ok_bind]

/-- Every error stops the loop at one of its rounds. -/
theorem Reached.exists_stop {e : Error} (h : tk.Reached r start s b)
    (herror : tk.parseFrom r s b = .error e) :
    ∃ s' b', tk.Reached r start s' b' ∧ tk.StopsWith r s' b' e := by
  induction s, b using parseFrom.induct tk with
  | case1 s b fault hnext =>
    rw [parseFrom_of_fault hnext] at herror
    refine ⟨s, b, h, ?_⟩
    rw [StopsWith, hnext]
    exact Except.error.inj herror
  | case2 s b hnext =>
    rw [parseFrom_of_end hnext] at herror
    refine ⟨s, b, h, ?_⟩
    rwa [StopsWith, hnext]
  | case3 s b t s' hnext ih =>
    rw [parseFrom_of_token hnext] at herror
    cases hstep : b.step r t with
    | ok b' =>
      rw [hstep, Result.ok_bind] at herror
      exact ih b' (h.round hnext hstep) herror
    | error e' =>
      rw [hstep, Result.error_bind] at herror
      obtain rfl := Except.error.inj herror
      refine ⟨s, b, h, ?_⟩
      rwa [StopsWith, hnext]

/-! ## The stacks -/

/-- A round keeps the stacks in step: a token that the tokenizer lets through changes the names of
the open nodes as it changes those of the open start tags, or its content has no place. -/
theorem ends_round (hr : r.KeepsNames) {t : Token} (hnames : b.names = tk.opened s)
    (hnext : tk.next? s = .ok (some (t, s'))) :
    Result.Ends Error.IsMisplaced (fun b' => b'.names = tk.opened s') (b.step r t) := by
  refine Builder.ends_step hr ?_
  rw [hnames]
  exact tk.openStep_opened hnext

theorem Reached.names_eq (hr : r.KeepsNames) (hstart : tk.opened start = [])
    (h : tk.Reached r start s b) : b.names = tk.opened s := by
  induction h with
  | start => exact hstart.symm
  | round _ hnext hstep ih =>
    have hround := ends_round hr ih hnext
    rwa [hstep] at hround

/-- The ways in which a round can end the loop with an error while the stacks are in step. -/
inductive StopCause (tk : Tokenizer) (s : tk.State) : Error → Prop
  | misplaced {e : Error} : e.IsMisplaced → StopCause tk s e
  | fault {fault : Fault} : tk.next? s = .error fault → StopCause tk s fault.error
  | unclosed {name : String} {outer : List String} : tk.next? s = .ok none →
      tk.opened s = name :: outer →
      StopCause tk s (.unexpectedEof ("closing tag </" ++ name ++ ">"))
  | empty : tk.next? s = .ok none → StopCause tk s .emptyDocument

theorem finish_of_names_cons {name : String} {outer : List String} (h : b.names = name :: outer) :
    b.finish = .error (.unexpectedEof ("closing tag </" ++ name ++ ">")) := by
  obtain ⟨opened, root?⟩ := b
  obtain ⟨o, opened, rfl, rfl, -⟩ := List.map_eq_cons_iff.1 h
  rfl

theorem StopsWith.cause (hr : r.KeepsNames) (hnames : b.names = tk.opened s) {e : Error}
    (h : tk.StopsWith r s b e) : tk.StopCause s e := by
  unfold StopsWith at h
  split at h
  · next fault hnext => exact h ▸ .fault hnext
  · next hnext =>
    cases hopened : tk.opened s with
    | cons name outer =>
      rw [finish_of_names_cons (hnames.trans hopened)] at h
      exact Except.error.inj h ▸ .unclosed hnext hopened
    | nil =>
      obtain ⟨opened, root?⟩ := b
      obtain rfl : opened = [] := List.map_eq_nil_iff.1 (hnames.trans hopened)
      cases root? with
      | none => exact Except.error.inj h ▸ .empty hnext
      | some root => exact absurd h nofun
  · next t s' hnext =>
    exact .misplaced ((ends_round hr hnames hnext).of_error h)

/-- What it means for a reader that its two stacks are in step. -/
structure Lockstep (tk : Tokenizer) (r : Registry) (start : tk.State)
    (outcome : Except Error Node) : Prop where
  outcome_eq : outcome = tk.parse r start
  /-- The open nodes have the names of the open start tags, in order. -/
  names_eq : ∀ s b, tk.Reached r start s b → b.names = tk.opened s
  ne_unexpectedEndTag : ∀ found, outcome ≠ .error (.unexpectedEndTag found)
  ne_mismatchedEndTag : ∀ expected found, outcome ≠ .error (.mismatchedEndTag expected found)
  /-- What is missing at the end is the end tag of the innermost open start tag. -/
  unexpectedEof_iff : ∀ expected, outcome = .error (.unexpectedEof expected) ↔
    ∃ s b name outer, tk.Reached r start s b ∧ tk.next? s = .ok none ∧
      tk.opened s = name :: outer ∧ expected = "closing tag </" ++ name ++ ">"

theorem lockstep (hr : r.KeepsNames) (hstart : tk.opened start = []) :
    tk.Lockstep r start (tk.parse r start) := by
  have hcause : ∀ e, tk.parse r start = .error e →
      ∃ s b, tk.Reached r start s b ∧ tk.StopCause s e := by
    intro e herror
    obtain ⟨s, b, hreached, hstop⟩ := Reached.start.exists_stop herror
    exact ⟨s, b, hreached, hstop.cause hr (hreached.names_eq hr hstart)⟩
  refine ⟨rfl, fun s b h => h.names_eq hr hstart, fun found herror => ?_,
    fun expected found herror => ?_, fun expected => ⟨fun herror => ?_, ?_⟩⟩
  · obtain ⟨s, b, -, hstop⟩ := hcause _ herror
    cases hstop with
    | misplaced hplace => exact hplace
  · obtain ⟨s, b, -, hstop⟩ := hcause _ herror
    cases hstop with
    | misplaced hplace => exact hplace
  · obtain ⟨s, b, hreached, hstop⟩ := hcause _ herror
    cases hstop with
    | misplaced hplace => exact hplace.elim
    | unclosed hnext hopened => exact ⟨s, b, _, _, hreached, hnext, hopened, rfl⟩
  · rintro ⟨s, b, name, outer, hreached, hnext, hopened, rfl⟩
    rw [← hreached.parseFrom_eq, parseFrom_of_end hnext]
    exact finish_of_names_cons ((hreached.names_eq hr hstart).trans hopened)

end Tokenizer

/-! ## The scanner -/

/-- Where the scanner is: the open start tags, the bytes it has read, and what is left. -/
structure ScanState where
  opened : List (List Char)
  position : Nat
  rest : List Char
deriving DecidableEq

namespace ScanState

/-- The scanner at the start of a document. -/
def ofDocument (document : String) : ScanState :=
  ⟨[], 0, withoutByteOrderMark document.toList⟩

/-- Reads one piece. -/
def next? : ScanState → Except Fault (Option (Token × ScanState))
  | ⟨_, _, []⟩ => .ok none
  | ⟨opened, position, c :: cs⟩ =>
    match Piece.cut (c :: cs) with
    | .error fault => .error (.cut fault position)
    | .ok (piece, rest) =>
      let stop := position + byteLength piece.source
      (stepPiece opened position stop piece).map fun step =>
        some (step.token, ⟨step.opened, stop, rest⟩)

theorem next?_eq_some {s s' : ScanState} {t : Token} (h : s.next? = .ok (some (t, s'))) :
    s'.rest.length < s.rest.length ∧
      openStep (s.opened.map String.ofList) t = some (s'.opened.map String.ofList) := by
  obtain ⟨opened, position, _ | ⟨c, cs⟩⟩ := s
  · exact absurd h nofun
  · rw [next?] at h
    split at h
    · exact absurd h nofun
    · next piece rest hcut =>
      obtain ⟨step, hstep, hsome⟩ := Result.map_eq_ok.1 h
      obtain ⟨rfl, rfl⟩ := Prod.mk.inj (Option.some.inj hsome)
      exact ⟨Piece.length_lt_of_cut (List.cons_ne_nil c cs) hcut, openStep_of_stepPiece hstep⟩

end ScanState

/-- The scanner as a tokenizer. -/
def scanner : Tokenizer where
  State := ScanState
  next? := ScanState.next?
  opened s := s.opened.map String.ofList
  openStep_opened h := (ScanState.next?_eq_some h).2
  bound s := s.rest.length
  bound_lt h := (ScanState.next?_eq_some h).1

/-- Handing over the tokens one at a time reports the same error as scanning the document first: the
builder has met all tokens before a fault. -/
theorem parseFrom_scanner (r : Registry) (opened : List (List Char)) (position : Nat)
    (cs : List Char) (b : Builder) :
    scanner.parseFrom r ⟨opened, position, cs⟩ b =
      (scanFrom opened position cs).tokens.foldlM (Builder.step r) b >>= fun b =>
        match (scanFrom opened position cs).fault? with
        | some fault => .error fault.error
        | none => b.finish := by
  fun_induction scanFrom opened position cs generalizing b with
  | case1 opened position => exact Tokenizer.parseFrom_of_end rfl
  | case2 opened position c cs fault hcut =>
    have hnext : scanner.next? ⟨opened, position, c :: cs⟩ = .error (.cut fault position) := by
      simp [scanner, ScanState.next?, hcut]
    exact Tokenizer.parseFrom_of_fault hnext
  | case3 opened position c cs piece rest hcut stop fault hstep =>
    have hnext : scanner.next? ⟨opened, position, c :: cs⟩ = .error fault := by
      simp [scanner, ScanState.next?, hcut, stop, hstep]
    exact Tokenizer.parseFrom_of_fault hnext
  | case4 opened position c cs piece rest hcut stop step hstep later ih =>
    have hnext : scanner.next? ⟨opened, position, c :: cs⟩ =
        .ok (some (step.token, ⟨step.opened, stop, rest⟩)) := by
      simp [scanner, ScanState.next?, hcut, stop, hstep]
    rw [Tokenizer.parseFrom_of_token hnext, List.foldlM_cons, bind_assoc]
    exact congrArg _ (funext ih)

theorem parseWith_eq_parse (r : Registry) (document : String) :
    Node.parseWith r document = scanner.parse r (.ofDocument document) :=
  (parseFrom_scanner r [] 0 _ .empty).symm

/-! ## The built-in types -/

theorem Registry.keepsNames_builtins : builtins.KeepsNames := by
  have hmade : ∀ t ∈ builtins.types, t.made = t := by decide
  refine keepsNames_iff.2 fun name t ht => ?_
  rw [hmade t (List.mem_of_find?_eq_some ht)]
  exact name_of_lookup? ht

/-- The open nodes of the builder have the names of the start tags that the tokenizer holds open,
whenever a round of reading begins, for the scanner as for every tokenizer that reports end tags
without a matching start tag. -/
theorem Node.parse_in_lockstep :
    (∀ document, scanner.Lockstep .builtins (.ofDocument document) (Node.parse document)) ∧
      ∀ (tk : Tokenizer) (start : tk.State), tk.opened start = [] →
        tk.Lockstep .builtins start (tk.parse .builtins start) := by
  refine ⟨fun document => ?_, fun tk start => Tokenizer.lockstep Registry.keepsNames_builtins⟩
  rw [Node.parse, parseWith_eq_parse]
  exact Tokenizer.lockstep Registry.keepsNames_builtins rfl

/-- A table in which a term is left open, read to its end in two rounds, and an end tag that the
scanner refuses. -/
theorem Node.parse_in_lockstep_of_open_term :
    Node.parse "<terms><term>" = .error (.unexpectedEof "closing tag </term>") ∧
      ∀ expected found,
        Node.parse "<term></terms>" ≠ .error (.mismatchedEndTag expected found) := by
  obtain ⟨hscanner, -⟩ := Node.parse_in_lockstep
  have hterms : (ScanState.ofDocument "<terms><term>").next? =
      .ok (some (.start "terms" [], ⟨["terms".toList], 7, "<term>".toList⟩)) := by
    decide +kernel
  have hterm : (ScanState.mk ["terms".toList] 7 "<term>".toList).next? =
      .ok (some (.start "term" [], ⟨["term".toList, "terms".toList], 13, []⟩)) := by
    decide +kernel
  refine ⟨((hscanner _).unexpectedEof_iff _).2 ?_, (hscanner _).ne_mismatchedEndTag⟩
  exact ⟨_, _, "term", ["terms"], .round (.round .start hterms rfl) hterm rfl, rfl, rfl, rfl⟩

end CitationLocale
