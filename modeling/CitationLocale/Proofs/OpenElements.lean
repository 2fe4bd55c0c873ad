import CitationLocale.Proofs.Building

/-!
# Open elements

The builder keeps a node for every element that the document has open. If a registry gives every
node the name that it is created for, the nodes have the names of the open elements, in order
(`Builder.ends_foldlM`). No end tag is then a surprise to the builder: the errors that are left are
those of the content, of the markup and of a document that is not complete
(`isRefusal_of_parseWith`).
-/

namespace CitationLocale

open Markup Result

/-- Whether an error says that a child, a text or a root has no place where it stands. -/
def Error.IsMisplaced : Error → Prop
  | .invalidChild .. => True
  | .multipleRoots => True
  | _ => False

/-! ## Growing a node -/

namespace Node

theorem ends_add_term (t : Term) (a : Addition) :
    Ends Error.IsMisplaced (fun m => m.name = (Node.term t).name) ((Node.term t).add a) := by
  rw [add_term]
  split
  · split_ifs
    · rfl
    · trivial
  · trivial

/-- A node either takes text and keeps its name, or it has no place for the text. -/
theorem ends_pushText (n : Node) (s : String) :
    Ends Error.IsMisplaced (fun m => m.name = n.name) (n.pushText s) := by
  cases n with
  | element | text => rfl
  | term t => exact ends_add_term t (.text s)
  | terms table =>
    rw [pushText]
    split_ifs <;> trivial

/-- A node either takes a child and keeps its name, or it has no place for the child. -/
theorem ends_append (n child : Node) :
    Ends Error.IsMisplaced (fun m => m.name = n.name) (n.append child) := by
  cases n with
  | element => rfl
  | text => trivial
  | term t => exact ends_add_term t (.child child)
  | terms table =>
    cases child with
    | term t => rfl
    | element | text | terms => trivial

end Node

namespace OpenNode

theorem ends_flush (o : OpenNode) :
    Ends Error.IsMisplaced (fun o' => o'.node.name = o.node.name) o.flush := by
  unfold flush
  split_ifs
  · rfl
  · exact (o.node.ends_pushText o.pending).map fun _ h => h

theorem ends_append (o : OpenNode) (child : Node) :
    Ends Error.IsMisplaced (fun o' => o'.node.name = o.node.name) (o.append child) :=
  o.ends_flush.bind fun flushed hflushed =>
    (flushed.node.ends_append child).bind fun _ h => h.trans hflushed

theorem ends_finish (o : OpenNode) :
    Ends Error.IsMisplaced (fun n => n.name = o.node.name) o.finish := by
  unfold finish
  split_ifs
  · exact o.node.ends_pushText o.pending
  · exact o.ends_flush.map fun _ h => h

end OpenNode

/-! ## The names of the open nodes -/

/-- Every node that the registry creates has the name it is created for. -/
def Registry.KeepsNames (r : Registry) : Prop :=
  ∀ name supplied, (r.create name supplied).name = name

namespace Builder

/-- The names of the open nodes, innermost first. -/
def names (b : Builder) : List String :=
  b.opened.map fun o => o.node.name

theorem ends_attach (b : Builder) (n : Node) :
    Ends Error.IsMisplaced (fun b' => b'.names = b.names) (b.attach n) := by
  obtain ⟨opened, root?⟩ := b
  cases opened with
  | nil =>
    simp only [attach]
    split_ifs
    · trivial
    · rfl
  | cons o outer =>
    rw [attach_inside]
    refine (o.ends_append n).map fun o' h => ?_
    simp only [names, List.map_cons, h]

variable {r : Registry} (hr : r.KeepsNames) {b : Builder}
include hr

/-- A token that keeps the tags of a document matched changes the names of the open nodes as it
changes those of the open elements. -/
theorem ends_step {t : Token} {names' : List String} (hopen : openStep b.names t = some names') :
    Ends Error.IsMisplaced (fun b' => b'.names = names') (b.step r t) := by
  obtain ⟨opened, root?⟩ := b
  cases t with
  | start name attributes =>
    obtain rfl := Option.some.inj hopen
    cases opened with
    | nil => exact congrArg (· :: []) (hr name _)
    | cons o outer =>
      rw [step, push_inside]
      refine o.ends_flush.map fun o' h => ?_
      simp only [names, List.map_cons, h, hr name]
  | empty name attributes =>
    obtain rfl := Option.some.inj hopen
    exact ends_attach _ _
  | close name =>
    cases opened with
    | nil => simp [names, openStep] at hopen
    | cons o outer =>
      simp only [names, List.map_cons, openStep] at hopen
      split_ifs at hopen with hname
      obtain rfl := Option.some.inj hopen
      rw [step, close_inside, OpenNode.closeAs, if_pos hname.symm]
      exact o.ends_finish.bind fun n _ => ends_attach ⟨outer, root?⟩ n
  | text s | cdata s =>
    obtain rfl := Option.some.inj hopen
    cases opened <;> rfl
  | aside =>
    obtain rfl := Option.some.inj hopen
    rfl

/-- The open nodes have the names of the elements that the tokens leave open. -/
theorem ends_foldlM {ts : List Token} {names' : List String}
    (hopen : openAfter b.names ts = some names') :
    Ends Error.IsMisplaced (fun b' => b'.names = names') (ts.foldlM (Builder.step r) b) := by
  induction ts generalizing b with
  | nil => exact Option.some.inj hopen
  | cons t ts ih =>
    rw [openAfter_cons, Option.bind_eq_some_iff] at hopen
    obtain ⟨next, hnext, hopen⟩ := hopen
    rw [List.foldlM_cons]
    refine (ends_step hr hnext).bind fun b' hb' => ih ?_
    rw [hb', hopen]

end Builder

/-! ## Documents that are refused -/

/-- The errors with which a document is refused if all nodes keep their names. -/
inductive IsRefusal (s : String) : Error → Prop
  | misplaced {e : Error} : e.IsMisplaced → IsRefusal s e
  | fault {fault : Fault} : (scan s).fault? = some fault → IsRefusal s fault.error
  | unclosed {name : String} {outer : List String} :
      openAfter [] (scan s).tokens = some (name :: outer) →
      IsRefusal s (.unexpectedEof ("closing tag </" ++ name ++ ">"))
  | empty : IsRefusal s .emptyDocument

theorem isRefusal_of_parseWith {r : Registry} (hr : r.KeepsNames) {s : String} {e : Error}
    (h : Node.parseWith r s = .error e) : IsRefusal s e := by
  obtain ⟨names, hnames⟩ := Option.isSome_iff_exists.1 (openAfter_scan s)
  have hrun := Builder.ends_foldlM hr (b := .empty) hnames
  have hparse : Ends (IsRefusal s) (fun _ => True) (Node.parseWith r s) := by
    refine (hrun.mono (fun e he => .misplaced he) fun b hb => hb).bind fun b hb => ?_
    cases hfault : (scan s).fault? with
    | some fault => exact .fault hfault
    | none =>
      obtain ⟨_ | ⟨o, outer⟩, _ | root⟩ := b
      · exact .empty
      · trivial
      · exact .unclosed (hnames.trans (congrArg some hb.symm))
      · exact .unclosed (hnames.trans (congrArg some hb.symm))
  exact hparse.of_error h

/-- The scanner has compared every end tag with its start tag before. -/
theorem not_isRefusal_mismatchedEndTag {s expected found : String} :
    ¬ IsRefusal s (.mismatchedEndTag expected found) := by
  intro h
  cases h with
  | misplaced hplace => exact hplace

end CitationLocale
