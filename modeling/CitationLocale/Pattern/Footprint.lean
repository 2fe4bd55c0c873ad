import CitationLocale.Pattern.Automaton
import CitationLocale.Pattern.SlotCache

/-!
# The size of automata

A pattern is refused if the automaton for it in either direction would take more than 10 MiB. The
states that spell a set of characters in UTF-8 are shared as far as a cache of bounded size finds
them again: the forward automaton shares the ends of spellings, the backward automaton their
beginnings.
-/

namespace CitationLocale

/-- An automaton so far: its number of states, the room they take in addition to that of a state,
and the states that can be shared. States are numbered in the order in which they are laid out. The
key of a state that can be shared names states of its own set, so it is found for that set only. -/
structure Tally where
  states : Nat
  room : Nat
  cache : SlotCache

namespace Tally

/-- The room that a state takes. -/
def stateRoom : Nat := 32

/-- The room that an automaton may take. -/
def maxRoom : Nat := 10 * 1024 * 1024

/-- Whether the automaton takes more room than it may. -/
def isTooLarge (t : Tally) : Bool :=
  maxRoom < t.states * stateRoom + t.room

/-- Adds states and room. -/
def add (t : Tally) (count room : Nat) : Tally :=
  ⟨t.states + count, t.room + room, t.cache⟩

/-- The state with a key; if none is found, a new state with some additional room. -/
def share (t : Tally) (key : List Nat) (room : Nat) : Nat × Tally :=
  match t.cache.get? key with
  | some id => (id, t)
  | none => (t.states, ⟨t.states + 1, t.room + room, t.cache.put key t.states⟩)

/-! ## Backwards -/

/-- Lays out one spelling on the way to the state where all end. Spellings with a common beginning
come there through the same states. -/
def spellBackwardTo (stop : Nat) (t : Tally) (s : Spelling) : Tally :=
  (s.foldl (fun (id, t) b => share t [id, b.first, b.last] 0) (stop, t)).2

/-- Lays out the spellings of a set: a fork to all of them, the state where they end, and the
states between. -/
def spellBackward (t : Tally) (ss : List Spelling) : Tally :=
  ss.foldl (fun u s => (spellBackwardTo (t.states + 1) u s).add 0 Layout.forkRoom) (t.add 2 0)

/-! ## Forwards

Spellings come in increasing order. The states along the last one are open: they can still get
transitions. Once a spelling differs, the states after the difference are closed from the last one
on, and a closed state is shared with one that has the same transitions. -/

/-- A state that can still get transitions: those that it has, each as its bytes and the state it
leads to, and the bytes of the one to the next open state. -/
structure OpenState where
  transitions : List Nat
  pending? : Option ByteSpan
deriving DecidableEq, Repr

/-- Lets the last transition lead to a state. -/
def OpenState.close (x : OpenState) (next : Nat) : OpenState :=
  match x.pending? with
  | some b => ⟨x.transitions ++ [b.first, b.last, next], none⟩
  | none => x

/-- Closes open states, the last of which leads to a given state, until there are no more than a
number of others below one whose last transition is settled. -/
def closeDown (keep next : Nat) : List OpenState → Tally → List OpenState × Tally
  | [], t => ([], t)
  | x :: below, t =>
    let x := x.close next
    if below.length ≤ keep then (x :: below, t)
    else
      let (id, t) := t.share x.transitions (x.transitions.length / 3 * Layout.transitionRoom)
      closeDown keep id below t

/-- How far a spelling agrees with the open states, the first of them first. -/
def agreement : Spelling → List OpenState → Nat
  | b :: s, x :: xs => if x.pending? = some b then agreement s xs + 1 else 0
  | _, _ => 0

/-- Lays out one more spelling, which ends in a given state. -/
def spellForwardTo (stop : Nat) (xs : List OpenState × Tally) (s : Spelling) :
    List OpenState × Tally :=
  let keep := agreement s xs.1.reverse
  match closeDown keep stop xs.1 xs.2, s.drop keep with
  | (x :: below, t), b :: rest =>
    (rest.foldl (fun xs b => ⟨[], some b⟩ :: xs) (⟨x.transitions, some b⟩ :: below), t)
  | xs, _ => xs

/-- Lays out the spellings of a set: the state where they end, and the states on the way there. -/
def spellForward (t : Tally) (ss : List Spelling) : Tally :=
  let stop := t.states
  let (xs, t) := ss.foldl (spellForwardTo stop) ([⟨[], none⟩], t.add 1 0)
  match closeDown 0 stop xs t with
  | (x :: _, t) =>
    (t.share x.transitions (x.transitions.length / 3 * Layout.transitionRoom)).2
  | ([], t) => t

/-! ## Whole automata -/

/-- Lays out a number of copies, unless the automaton is too large already. -/
def repeatWithin (f : Tally → Tally) : Nat → Tally → Tally
  | 0, t => t
  | n + 1, t => if t.isTooLarge then t else repeatWithin f n (f t)

/-- Lays out states. -/
def lay (d : Direction) : Layout → Tally → Tally
  | .states count room, t => t.add count room
  | .spelled ss, t =>
    match d with
    | .forward => t.spellForward ss
    | .backward => t.spellBackward ss
  | .append p q, t => lay d q (lay d p t)
  | .times n p, t => repeatWithin (lay d p) n t

/-- The tally before any state. The cache for closed states is larger than the one for beginnings. -/
def start : Direction → Tally
  | .forward => ⟨0, 0, .ofSize 10000⟩
  | .backward => ⟨0, 0, .ofSize 1000⟩

end Tally

/-- Whether the automaton for an expression in a direction is too large. -/
def Expression.isTooLarge (d : Direction) (e : Expression) : Bool :=
  (Tally.lay d (e.automaton d) (.start d)).isTooLarge

end CitationLocale
