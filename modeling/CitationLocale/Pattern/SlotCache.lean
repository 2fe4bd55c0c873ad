/-!
# Caches with one place for each slot

A cache assigns numbers to keys. The key decides the slot, and a slot holds the last key that was
put there, so a key can be lost to another one.
-/

namespace CitationLocale

structure SlotCache where
  slots : Array (Option (List Nat × Nat))

namespace SlotCache

/-- An empty cache with a number of slots. -/
def ofSize (n : Nat) : SlotCache :=
  ⟨Array.replicate n none⟩

/-- The 64-bit FNV-1a hash of a key, taken number by number. -/
def hash (key : List Nat) : UInt64 :=
  key.foldl (fun h n => (h ^^^ n.toUInt64) * 0x100000001B3) 0xCBF29CE484222325

/-- The slot of a key. -/
def slot (c : SlotCache) (key : List Nat) : Nat :=
  (hash key % c.slots.size.toUInt64).toNat

/-- The number of a key, if its slot still holds it. -/
def get? (c : SlotCache) (key : List Nat) : Option Nat :=
  match c.slots[c.slot key]? with
  | some (some (k, n)) => if k == key then some n else none
  | _ => none

/-- Puts a key into its slot. -/
def put (c : SlotCache) (key : List Nat) (n : Nat) : SlotCache :=
  let i := c.slot key
  ⟨c.slots.setIfInBounds i (some (key, n))⟩

end SlotCache

end CitationLocale
