import Mathlib.Algebra.Order.Ring.Int
import CitationLocale.Attributes.Selection
import CitationLocale.Proofs.Result

/-!
# Selecting by machine words

Places in a record are integers, but a machine counts them in words. Here values are selected with
places that are words of `w` bits, in steps that can go wrong: a sum may leave the signed words, and
an access may miss the record. A record that fits into memory has fewer places than there are
signed words, and then nothing goes wrong, whatever is selected
(`Attributes.readAll_eq`, `Attributes.valuesAt_total`).
-/

namespace CitationLocale

variable {w : Nat}

/-- A selector whose places are words of `w` bits, signed ones for single values. -/
inductive WordSelector (w : Nat) where
  | index (i : BitVec w)
  | range (start stop : BitVec w)
  | key (k : String)
deriving DecidableEq, Repr

namespace WordSelector

/-- The selector with the same places as integers. -/
def value : WordSelector w → Selector
  | index i => .index i.toInt
  | range start stop => .range start.toNat stop.toNat
  | key k => .key k

/-- The selector of an unsigned place. Behind the signed words the last of them stands for it. -/
def ofPosition (p : BitVec w) : WordSelector w :=
  .index (if 2 * p.toNat < 2 ^ w then p else BitVec.intMax w)

end WordSelector

/-- What can go wrong in a selection. -/
inductive AccessFault where
  | outOfBounds (place size : Nat)
  | overflow
deriving DecidableEq, Repr

/-- The sum of two signed words. -/
def addWords (a b : BitVec w) : Except AccessFault (BitVec w) :=
  if a.saddOverflow b then .error .overflow else .ok (a + b)

namespace Attributes

variable (r : Attributes)

/-! ## Selecting in steps -/

/-- The value at a place, which has to lie in the record. -/
def entryAt (place : Nat) : Except AccessFault (Option String) :=
  match r.toList[place]? with
  | some value? => .ok value?
  | none => .error (.outOfBounds place r.size)

/-- Reads the value at a signed place, if this lies in the record. -/
def readInside (place : BitVec w) : Except AccessFault (Option String) :=
  if (0#w).sle place && place.slt (.ofNat w r.size) then r.entryAt place.toNat else .ok none

/-- Reads the value at a place that counts from the end if it is negative. -/
def readAt (i : BitVec w) : Except AccessFault (Option String) := do
  r.readInside (← if i.slt 0#w then addWords (.ofNat w r.size) i else .ok i)

/-- Reads the values from one place up to another one or to the end. -/
def readRange (start stop : BitVec w) : Except AccessFault (List (Option String)) :=
  (List.range' start.toNat (min stop.toNat r.size - start.toNat)).mapM r.entryAt

/-- Reads the value of an attribute at the first place with its name. -/
def readKey (k : String) : Except AccessFault (Option String) :=
  match r.keys.findIdx? (· == k) with
  | some place => r.entryAt place
  | none => .ok none

/-- Reads the values that a selector picks. -/
def read : WordSelector w → Except AccessFault (List (Option String))
  | .index i => (r.readAt i).map ([·])
  | .range start stop => r.readRange start stop
  | .key k => (r.readKey k).map ([·])

/-- Reads the values that some selectors pick, each selector behind the ones before. -/
def readAll (selectors : List (WordSelector w)) : Except AccessFault (List (Option String)) :=
  selectors.foldlM (fun values s => (r.read s).map (values ++ ·)) []

/-! ## Nothing goes wrong -/

theorem entryAt_of_lt {place : Nat} (h : place < r.toList.length) :
    r.entryAt place = .ok r.toList[place] := by
  rw [entryAt, List.getElem?_eq_getElem h]

theorem length_toList : r.toList.length = r.size :=
  List.length_map ..

theorem lookup_eq_findIdx? (k : String) (entries : List (String × Option String)) :
    entries.lookup k = ((entries.map Prod.fst).findIdx? (· == k)).bind fun place =>
      (entries.map Prod.snd)[place]? := by
  induction entries with
  | nil => rfl
  | cons e entries ih =>
    obtain ⟨k', v⟩ := e
    rw [List.map_cons, List.findIdx?_cons, List.lookup_cons, ih]
    by_cases hk : k' = k
    · simp [hk]
    · have hk' : (k == k') = false := beq_false_of_ne (Ne.symm hk)
      simp [hk, hk', Option.bind_map, Function.comp_def]

theorem readKey_eq (k : String) : r.readKey k = .ok (r.get? k) := by
  have hlookup : r.entries.lookup k = (r.keys.findIdx? (· == k)).bind fun place =>
      r.toList[place]? := lookup_eq_findIdx? k r.entries
  rw [readKey, get?, hlookup]
  cases hplace : r.keys.findIdx? (· == k) with
  | none => rfl
  | some place =>
    have hlt : place < r.toList.length := by
      have hkeys := (List.findIdx?_eq_some_iff_getElem.1 hplace).1
      rwa [keys, List.length_map, ← List.length_map (fun e => e.2)] at hkeys
    dsimp only
    rw [r.entryAt_of_lt hlt, Option.bind_some, List.getElem?_eq_getElem hlt]
    rfl

/-- Places in the record are read one after the other. -/
theorem mapM_entryAt {start n : Nat} (h : start + n ≤ r.toList.length) :
    (List.range' start n).mapM r.entryAt = .ok ((r.toList.drop start).take n) := by
  induction n generalizing start with
  | zero => rfl
  | succ n ih =>
    have hlt : start < r.toList.length := by omega
    rw [List.range'_succ, List.mapM_cons, r.entryAt_of_lt hlt, Result.ok_bind,
      ih (by omega), List.drop_eq_getElem_cons hlt, List.take_succ_cons]
    rfl

theorem readRange_eq (start stop : BitVec w) :
    r.readRange start stop = .ok (r.select (.range start.toNat stop.toNat)) := by
  have hsize := r.length_toList
  rw [select, List.drop_take, readRange]
  by_cases hstart : start.toNat ≤ r.toList.length
  · rw [mapM_entryAt r (by omega), ← hsize]
    refine congrArg Except.ok (List.take_eq_take_iff.2 ?_)
    rw [List.length_drop]
    omega
  · have hnone : min stop.toNat r.size - start.toNat = 0 := by omega
    rw [hnone, List.drop_eq_nil_of_le (by omega), List.take_nil]
    rfl

section

variable {r} (hfits : 2 * r.size < 2 ^ w)
include hfits

theorem toInt_size : (BitVec.ofNat w r.size).toInt = r.size := by
  have hsize : (BitVec.ofNat w r.size).toNat = r.size := by
    rw [BitVec.toNat_ofNat, Nat.mod_eq_of_lt (by omega)]
  rw [BitVec.toInt_eq_toNat_cond, hsize, if_pos hfits]

theorem size_lt : (r.size : Int) < 2 ^ (w - 1) := by
  cases w with
  | zero => omega
  | succ w =>
    rw [Nat.pow_succ] at hfits
    rw [Nat.add_sub_cancel]
    exact_mod_cast show r.size < 2 ^ w by omega

theorem readInside_eq (place : BitVec w) : r.readInside place =
    .ok (if place.toInt < 0 then none else (r.toList[place.toInt.toNat]?).join) := by
  have hsize := r.length_toList
  have hcond := place.toInt_eq_toNat_cond
  rw [readInside, BitVec.sle_eq_decide, BitVec.slt_eq_decide, toInt_size hfits, BitVec.toInt_zero]
  by_cases hneg : place.toInt < 0
  · rw [if_pos hneg, if_neg (by simp; omega)]
  · have hplace : place.toInt = place.toNat := by split at hcond <;> omega
    rw [if_neg hneg, hplace, Int.toNat_natCast]
    by_cases hlt : place.toNat < r.toList.length
    · rw [if_pos (by simp; omega), r.entryAt_of_lt hlt, List.getElem?_eq_getElem hlt]
      rfl
    · rw [if_neg (by simp; omega), List.getElem?_eq_none (by omega)]
      rfl

theorem readAt_eq (i : BitVec w) : r.readAt i = .ok (r.valueAt i.toInt) := by
  rw [readAt, valueAt, BitVec.slt_eq_decide, BitVec.toInt_zero]
  by_cases hneg : i.toInt < 0
  · -- The size is no less than zero, and the place is: the sum lies between the two.
    have hsum : ¬ (BitVec.ofNat w r.size).saddOverflow i = true := by
      have hlt := size_lt hfits
      have hle := i.le_toInt
      rw [BitVec.saddOverflow, toInt_size hfits]
      simp
      omega
    rw [if_pos (by simpa using hneg), if_pos hneg, addWords, if_neg hsum, ← toInt_size hfits,
      ← BitVec.toInt_add_of_not_saddOverflow hsum]
    exact readInside_eq hfits _
  · rw [if_neg (by simpa using hneg), if_neg hneg]
    exact readInside_eq hfits i

theorem read_eq (s : WordSelector w) : r.read s = .ok (r.select s.value) := by
  cases s with
  | index i => rw [read, readAt_eq hfits]; rfl
  | range start stop => exact r.readRange_eq start stop
  | key k => rw [read, readKey_eq]; rfl

/-- Nothing goes wrong in a record that fits into memory. -/
theorem readAll_eq (selectors : List (WordSelector w)) :
    r.readAll selectors = .ok (r.valuesAt (selectors.map WordSelector.value)) := by
  have hrun (values : List (Option String)) :
      selectors.foldlM (fun values s => (r.read s).map (values ++ ·)) values =
        .ok (values ++ r.valuesAt (selectors.map WordSelector.value)) := by
    induction selectors generalizing values with
    | nil => exact congrArg Except.ok (List.append_nil values).symm
    | cons s selectors ih =>
      rw [List.foldlM_cons, read_eq hfits, Result.ok_map, Result.ok_bind, ih, List.append_assoc]
      rfl
  exact hrun []

end

/-! ## What is selected -/

theorem valuesAt_singleton (s : Selector) : r.valuesAt [s] = r.select s :=
  List.flatMap_singleton ..

theorem join_getElem? (values : List (Option String)) (place : Nat) :
    (values[place]?).join = if h : place < values.length then values[place] else none := by
  split_ifs with h
  · rw [List.getElem?_eq_getElem h]
    rfl
  · rw [List.getElem?_eq_none (by omega)]
    rfl

theorem valuesAt_index (i : Nat) :
    r.valuesAt [.index i] = [if h : i < r.toList.length then r.toList[i] else none] := by
  have hplace : ¬ (i : Int) < 0 := by omega
  rw [valuesAt_singleton, select, valueAt, if_neg hplace, if_neg hplace, Int.toNat_natCast,
    join_getElem?]

theorem valuesAt_index_neg {k : Nat} (hk : 0 < k) : r.valuesAt [.index (-k)] =
    [if h : k ≤ r.toList.length then r.toList[r.toList.length - k] else none] := by
  have hneg : -(k : Int) < 0 := by omega
  rw [valuesAt_singleton, select, valueAt, if_pos hneg, ← r.length_toList]
  by_cases h : k ≤ r.toList.length
  · have hplace : (r.toList.length : Int) + -k = (r.toList.length - k : Nat) := by omega
    rw [dif_pos h, hplace, if_neg (by omega), Int.toNat_natCast, join_getElem?, dif_pos]
  · rw [dif_neg h, if_pos (by omega)]

theorem valuesAt_range (start stop : Nat) : r.valuesAt [.range start stop] =
    r.toList.extract start (min stop r.toList.length) := by
  rw [valuesAt_singleton, select, List.extract_eq_take_drop, List.drop_take,
    List.take_eq_take_iff, List.length_drop]
  omega

/-- An unsigned place is the place that it is as a number. -/
theorem readAll_ofPosition {r : Attributes} (hfits : 2 * r.size < 2 ^ w) (p : BitVec w) :
    r.readAll [.ofPosition p] =
      .ok [if h : p.toNat < r.toList.length then r.toList[p.toNat] else none] := by
  have hsize := r.length_toList
  rw [readAll_eq hfits, ← valuesAt_index]
  by_cases hp : 2 * p.toNat < 2 ^ w
  · have hplace : p.toInt = p.toNat := by rw [BitVec.toInt_eq_toNat_cond, if_pos hp]
    rw [List.map_singleton, WordSelector.ofPosition, if_pos hp, WordSelector.value, hplace]
  · -- The last signed word is a place behind the record as well.
    have hlast : (BitVec.intMax w).toInt = ((2 ^ (w - 1) - 1 : Nat) : Int) := by
      rw [BitVec.toInt_intMax, Int.ofNat_sub Nat.one_le_two_pow, Int.natCast_pow]
      rfl
    have hlt : r.size < 2 ^ (w - 1) := by exact_mod_cast size_lt hfits
    rw [List.map_singleton, WordSelector.ofPosition, if_neg hp, WordSelector.value, hlast,
      valuesAt_index, valuesAt_index, dif_neg (by omega), dif_neg (by omega)]

/-- A selection never misses the record and never overflows, whatever the words are, and yields what
the selectors yield one by one. A place from the start or from the end yields its value, or none
outside the record; an unsigned place does so, too, and behind the signed words it is outside. A
range yields the values of its places in the record, and a key yields its value. -/
theorem valuesAt_total (r : Attributes) :
    (∀ w, 2 * r.size < 2 ^ w → ∀ selectors : List (WordSelector w),
        r.readAll selectors = .ok (r.valuesAt (selectors.map WordSelector.value))) ∧
      (∀ selectors, r.valuesAt selectors = selectors.flatMap fun s => r.valuesAt [s]) ∧
      (∀ i : Nat,
        r.valuesAt [.index i] = [if h : i < r.toList.length then r.toList[i] else none]) ∧
      (∀ k : Nat, (hk : 0 < k) → r.valuesAt [.index (-k)] =
        [if h : k ≤ r.toList.length then r.toList[r.toList.length - k] else none]) ∧
      (∀ w, 2 * r.size < 2 ^ w → ∀ p : BitVec w, r.readAll [.ofPosition p] =
          .ok [if h : p.toNat < r.toList.length then r.toList[p.toNat] else none] ∧
        (2 ^ w ≤ 2 * p.toNat → r.readAll [.ofPosition p] = .ok [none])) ∧
      (∀ start stop, r.valuesAt [.range start stop] =
          r.toList.extract start (min stop r.toList.length) ∧
        (min stop r.toList.length ≤ start → r.valuesAt [.range start stop] = [])) ∧
      ∀ k, r.valuesAt [.key k] = [r.get? k] := by
  have hsize := r.length_toList
  refine ⟨fun w hfits => readAll_eq hfits, fun selectors => ?_, valuesAt_index r,
    fun k => valuesAt_index_neg r, fun w hfits p => ⟨readAll_ofPosition hfits p, fun hp => ?_⟩,
    fun start stop => ⟨valuesAt_range r start stop, fun h => ?_⟩,
    fun k => valuesAt_singleton r _⟩
  · simp only [valuesAt_singleton]
    rfl
  · rw [readAll_ofPosition hfits, dif_neg (by omega)]
  · rw [valuesAt_range, List.extract_eq_take_drop, Nat.sub_eq_zero_of_le h, List.take_zero]

/-- The least and the greatest words, an empty and an endless range, and a key. -/
theorem valuesAt_total_of_extreme_words :
    let r := (defaults [⟨"family", none⟩, ⟨"given", none⟩, ⟨"form", some "long"⟩]).set "family" "M"
    2 * r.size < 2 ^ 64 ∧
      r.readAll [.index (BitVec.intMin 64), .index (-3), .ofPosition (.allOnes 64),
          .range 1 (.allOnes 64), .range 3 1, .key "form"] =
        .ok [none, some "M", none, none, some "long", some "long"] := by
  intro r
  have hfits : 2 * r.size < 2 ^ 64 := by decide
  refine ⟨hfits, ?_⟩
  rw [(valuesAt_total r).1 64 hfits]
  decide

end Attributes

end CitationLocale
