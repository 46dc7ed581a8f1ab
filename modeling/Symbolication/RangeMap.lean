import Symbolication.OrderedMap.Basic

/-!
Values attached to address ranges `[base, base + size)` that never overlap. A range that would
overlap one already stored is refused, so the first range stored at an address keeps it.
-/

namespace Symbolication

/-- A value attached to the `size` addresses from `base` on. -/
structure Range (α : Type) where
  base : UInt64
  size : UInt64
  value : α
  deriving DecidableEq, Repr

namespace Range

variable {α : Type}

def covers (r : Range α) (address : UInt64) : Bool :=
  r.base ≤ address && address - r.base < r.size

/-- A range is storable if it holds an address and ends at or below the greatest one. -/
def isStorable (r : Range α) : Bool :=
  r.size != 0 && r.base.toNat + r.size.toNat ≤ UInt64.size

/-- The greatest address of a storable range. -/
def last (r : Range α) : UInt64 := r.base + (r.size - 1)

end Range

/-- Ranges by base address; each entry holds the size of its range and the value attached to it. -/
structure RangeMap (α : Type) where
  entries : OrderedMap UInt64 (UInt64 × α)
  deriving DecidableEq

namespace RangeMap

variable {α : Type}

def empty : RangeMap α := ⟨.empty⟩

instance : EmptyCollection (RangeMap α) := ⟨empty⟩
instance : Inhabited (RangeMap α) := ⟨empty⟩

def size (m : RangeMap α) : Nat := m.entries.size

def rangeOfEntry (e : UInt64 × UInt64 × α) : Range α := ⟨e.1, e.2.1, e.2.2⟩

/-- The stored ranges, by ascending base. -/
def toList (m : RangeMap α) : List (Range α) := m.entries.entries.map rangeOfEntry

/-- The range with the greatest base at or below `address`, whether or not it covers it. -/
def nearest? (m : RangeMap α) (address : UInt64) : Option (Range α) :=
  (m.entries.atOrBelow? address).map rangeOfEntry

def find? (m : RangeMap α) (address : UInt64) : Option (Range α) :=
  (m.nearest? address).filter (·.covers address)

/-- Whether a stored range starts inside `r`, or the nearest one that starts below `r` reaches it. -/
def meets (m : RangeMap α) (r : Range α) : Bool :=
  -- Ranges that start below `r` do not overlap, so none but the nearest can reach it.
  !(m.entries.between r.base r.last).isEmpty ||
    ((m.entries.below? r.base).map rangeOfEntry).any (·.covers r.base)

/-- The map with `r` added, or `none` if `r` is not storable or meets a range of the map. -/
def store? (m : RangeMap α) (r : Range α) : Option (RangeMap α) :=
  if r.isStorable && !m.meets r then
    some ⟨m.entries.insert r.base (r.size, r.value)⟩
  else
    none

end RangeMap

end Symbolication
