/-!
Finite maps as entry lists in strictly increasing key order. The order is part of the type, so two
maps with the same entries are the same map, and a traversal meets the keys in ascending order.
-/

namespace Symbolication

universe u v

/-- A finite map held as its entries, keys strictly ascending. -/
structure OrderedMap (κ : Type u) (α : Type v) [Ord κ] where
  entries : List (κ × α)
  ascending : entries.Pairwise fun p q => compare p.1 q.1 = .lt

namespace OrderedMap

variable {κ : Type u} {α : Type v} [Ord κ]

theorem ext {m n : OrderedMap κ α} (h : m.entries = n.entries) : m = n := by
  cases m; cases n; cases h; rfl

instance [DecidableEq κ] [DecidableEq α] : DecidableEq (OrderedMap κ α) := fun m n =>
  decidable_of_iff (m.entries = n.entries) ⟨ext, fun h => h ▸ rfl⟩

def empty : OrderedMap κ α := ⟨[], .nil⟩

instance : EmptyCollection (OrderedMap κ α) := ⟨empty⟩
instance : Inhabited (OrderedMap κ α) := ⟨empty⟩

def size (m : OrderedMap κ α) : Nat := m.entries.length

def isEmpty (m : OrderedMap κ α) : Bool := m.entries.isEmpty

def keys (m : OrderedMap κ α) : List κ := m.entries.map Prod.fst

def values (m : OrderedMap κ α) : List α := m.entries.map Prod.snd

def get? (m : OrderedMap κ α) (k : κ) : Option α :=
  (m.entries.find? fun p => compare p.1 k == .eq).map Prod.snd

def contains (m : OrderedMap κ α) (k : κ) : Bool := (m.get? k).isSome

/-- Places `k ↦ a` at its position in an ascending entry list; an entry of the same key gives way. -/
def insertEntry (k : κ) (a : α) : List (κ × α) → List (κ × α)
  | [] => [(k, a)]
  | (k', a') :: rest =>
    match compare k k' with
    | .lt => (k, a) :: (k', a') :: rest
    | .eq => (k, a) :: rest
    | .gt => (k', a') :: insertEntry k a rest

theorem mem_insertEntry {k : κ} {a : α} {p : κ × α} {es : List (κ × α)}
    (h : p ∈ insertEntry k a es) : p = (k, a) ∨ p ∈ es := by
  induction es with
  | nil => simpa [insertEntry] using h
  | cons e rest ih =>
    rw [insertEntry] at h
    split at h
    · simpa using h
    · rcases List.mem_cons.mp h with h | h
      · exact .inl h
      · exact .inr (List.mem_cons_of_mem _ h)
    · rcases List.mem_cons.mp h with h | h
      · exact .inr (h ▸ List.mem_cons_self)
      · exact (ih h).imp_right (List.mem_cons_of_mem _)

theorem ascending_insertEntry [Std.TransOrd κ] [Std.LawfulEqOrd κ] {k : κ} {a : α}
    {es : List (κ × α)} (h : es.Pairwise fun p q => compare p.1 q.1 = .lt) :
    (insertEntry k a es).Pairwise fun p q => compare p.1 q.1 = .lt := by
  induction es with
  | nil => simp [insertEntry]
  | cons e rest ih =>
    obtain ⟨k', a'⟩ := e
    obtain ⟨hhead, htail⟩ := List.pairwise_cons.mp h
    rw [insertEntry]
    split
    · rename_i hlt
      refine List.pairwise_cons.mpr ⟨fun p hp => ?_, h⟩
      rcases List.mem_cons.mp hp with rfl | hp
      · exact hlt
      · exact Std.TransCmp.lt_trans hlt (hhead p hp)
    · rename_i heq
      have hk : k = k' := Std.LawfulEqCmp.compare_eq_iff_eq.mp heq
      subst hk
      exact List.pairwise_cons.mpr ⟨hhead, htail⟩
    · rename_i hgt
      refine List.pairwise_cons.mpr ⟨fun p hp => ?_, ih htail⟩
      rcases mem_insertEntry hp with rfl | hp
      · exact Std.OrientedCmp.gt_iff_lt.mp hgt
      · exact hhead p hp

/-- Stores `a` under `k`, in place of any earlier value. -/
def insert [Std.TransOrd κ] [Std.LawfulEqOrd κ] (m : OrderedMap κ α) (k : κ) (a : α) :
    OrderedMap κ α :=
  ⟨insertEntry k a m.entries, ascending_insertEntry m.ascending⟩

/-- Stores `a` under `k` unless `k` already has a value. -/
def insertNew [Std.TransOrd κ] [Std.LawfulEqOrd κ] (m : OrderedMap κ α) (k : κ) (a : α) :
    OrderedMap κ α :=
  if m.contains k then m else m.insert k a

def erase (m : OrderedMap κ α) (k : κ) : OrderedMap κ α :=
  ⟨m.entries.filter fun p => compare p.1 k != .eq, m.ascending.filter _⟩

def ofList [Std.TransOrd κ] [Std.LawfulEqOrd κ] (es : List (κ × α)) : OrderedMap κ α :=
  es.foldl (fun m p => m.insert p.1 p.2) empty

/-- The entry of the greatest key at or below `k`. -/
def atOrBelow? (m : OrderedMap κ α) (k : κ) : Option (κ × α) :=
  (m.entries.takeWhile fun p => compare p.1 k != .gt).getLast?

/-- The entry of the greatest key strictly below `k`. -/
def below? (m : OrderedMap κ α) (k : κ) : Option (κ × α) :=
  (m.entries.takeWhile fun p => compare p.1 k == .lt).getLast?

/-- The entries with `lo ≤ key ≤ hi`, ascending. -/
def between (m : OrderedMap κ α) (lo hi : κ) : List (κ × α) :=
  m.entries.filter fun p => compare p.1 lo != .lt && compare p.1 hi != .gt

end OrderedMap

end Symbolication
