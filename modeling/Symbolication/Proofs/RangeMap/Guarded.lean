import Symbolication.Proofs.RangeMap.Disjoint

/-!
Range maps in arithmetic that does not wrap. Every operation that could go wrong at the edges of the
address space is made to fail there: a difference below 0, a range of keys that ends before it starts,
an address past the greatest one. None of the failures is ever met, and the results are those of the map.
-/

namespace Symbolication.Guarded

/-- What arithmetic on addresses and a range of keys can run into. -/
inductive Fault where
  | differenceBelowZero
  | reversedKeys
  | wrappedAddress
  deriving DecidableEq, Repr

/-- The difference of two offsets, of which the second may not be the greater one. -/
def sub (a b : UInt64) : Except Fault UInt64 :=
  if b ≤ a then .ok (a - b) else .error .differenceBelowZero

theorem sub_of_le {a b : UInt64} (h : b ≤ a) : sub a b = .ok (a - b) := if_pos h

/-- The sum of two offsets, if there is one. -/
def sum? (a b : UInt64) : Option UInt64 :=
  if a.toNat + b.toNat < UInt64.size then some (a + b) else none

/-- The entries with keys from `lo` to `hi`, of which `lo` may not be the greater one. -/
def between {α : Type} (m : OrderedMap UInt64 α) (lo hi : UInt64) :
    Except Fault (List (UInt64 × α)) :=
  if lo ≤ hi then .ok (m.between lo hi) else .error .reversedKeys

theorem between_of_le {α : Type} (m : OrderedMap UInt64 α) {lo hi : UInt64} (h : lo ≤ hi) :
    between m lo hi = .ok (m.between lo hi) := if_pos h

variable {α : Type}

/-- Whether the nearest range that starts below `address` reaches it. -/
def reaches (m : RangeMap α) (address : UInt64) : Except Fault Bool :=
  match m.entries.below? address with
  | none => .ok false
  | some e => (sub address e.1).map (· < e.2.1)

theorem reaches_eq (m : RangeMap α) (address : UInt64) :
    reaches m address =
      .ok (((m.entries.below? address).map RangeMap.rangeOfEntry).any (·.covers address)) := by
  unfold reaches
  cases hbelow : m.entries.below? address with
  | none => rfl
  | some e =>
    -- The entry lies below the address, so the distance is no negative one.
    have hlt := (OrderedMap.below?_eq_some_iff.mp hbelow).2.1
    have hle : e.1 ≤ address :=
      UInt64.le_iff_toNat_le.mpr (Nat.le_of_lt ((OrderedMap.compare_eq_lt_iff _ _).mp hlt))
    have hcovers := (RangeMap.rangeOfEntry e).covers_of_base_le address hle
    dsimp only
    rw [sub_of_le hle, Option.map_some, Option.any_some, hcovers]
    rfl

/-- Stores a range as `RangeMap.store?` does. A range past the greatest address is refused, and no fault. -/
def store (m : RangeMap α) (r : Range α) : Except Fault (Option (RangeMap α)) :=
  if r.size = 0 then .ok none
  else do
    match sum? r.base (← sub r.size 1) with
    | none => .ok none
    | some last =>
      if !(← between m.entries r.base last).isEmpty then .ok none
      else if ← reaches m r.base then .ok none
      else .ok (some ⟨m.entries.insert r.base (r.size, r.value)⟩)

theorem one_le_of_ne_zero {size : UInt64} (h : size ≠ 0) : 1 ≤ size := by
  have hne : size.toNat ≠ 0 := fun hzero => h (UInt64.toNat_inj.mp hzero)
  rw [UInt64.le_iff_toNat_le]
  exact Nat.one_le_iff_ne_zero.mpr hne

/-- A range that is not empty is storable exactly if its last address can be computed. -/
theorem sum?_last (r : Range α) (h : r.size ≠ 0) :
    sum? r.base (r.size - 1) = if r.isStorable then some r.last else none := by
  have hone := one_le_of_ne_zero h
  have hsub : (r.size - 1).toNat = r.size.toNat - 1 := UInt64.toNat_sub_of_le r.size 1 hone
  have hpos : 1 ≤ r.size.toNat := UInt64.le_iff_toNat_le.mp hone
  have hfits : r.base.toNat + (r.size - 1).toNat < UInt64.size ↔ r.isStorable = true := by
    rw [Range.isStorable_iff]
    omega
  unfold sum?
  by_cases hstorable : r.isStorable = true
  · rw [if_pos (hfits.mpr hstorable), if_pos hstorable]
    rfl
  · rw [if_neg fun hlt => hstorable (hfits.mp hlt), if_neg hstorable]

/-- Storing a range meets no fault, wherever the range lies and whatever the map holds. -/
theorem store_eq (m : RangeMap α) (r : Range α) : store m r = .ok (m.store? r) := by
  unfold store
  by_cases hsize : r.size = 0
  · have hstorable : r.isStorable = false := by simp [Range.isStorable, hsize]
    rw [if_pos hsize, RangeMap.store?, hstorable]
    rfl
  · rw [if_neg hsize, sub_of_le (one_le_of_ne_zero hsize)]
    dsimp only [bind, Except.bind]
    rw [sum?_last r hsize, RangeMap.store?]
    by_cases hstorable : r.isStorable = true
    · have hlast : r.base ≤ r.last := UInt64.le_iff_toNat_le.mpr (r.base_le_last hstorable)
      rw [if_pos hstorable, hstorable]
      dsimp only
      rw [between_of_le m.entries hlast, reaches_eq, RangeMap.meets]
      dsimp only
      -- The range is kept out by one that starts inside it, or else by one that reaches it.
      cases (m.entries.between r.base r.last).isEmpty with
      | false => rfl
      | true =>
        cases ((m.entries.below? r.base).map RangeMap.rangeOfEntry).any (·.covers r.base) <;> rfl
    · rw [if_neg hstorable, Bool.eq_false_iff.mpr hstorable]
      rfl

/-- The range that covers an address, as `RangeMap.find?` finds it. -/
def find (m : RangeMap α) (address : UInt64) : Except Fault (Option (Range α)) :=
  match m.nearest? address with
  | none => .ok none
  | some r => (sub address r.base).map fun distance => if distance < r.size then some r else none

/-- Finding a range meets no fault. -/
theorem find_eq (m : RangeMap α) (address : UInt64) : find m address = .ok (m.find? address) := by
  unfold find RangeMap.find?
  cases hnearest : m.nearest? address with
  | none => rfl
  | some r =>
    have hle := m.base_le_of_nearest? address r hnearest
    dsimp only
    rw [sub_of_le hle, Option.filter_some, r.covers_of_base_le address hle]
    simp only [Except.map, decide_eq_true_iff]

end Symbolication.Guarded
