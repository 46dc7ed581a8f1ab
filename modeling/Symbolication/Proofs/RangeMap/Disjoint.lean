import Symbolication.Proofs.OrderedMap.Insertion
import Symbolication.RangeMap

/-!
Range maps as sets of ranges without common addresses. As long as its ranges keep apart, a map finds
the one range that covers an address, and it stores a range exactly if that range is storable and
apart from all the others; so every map that is built by storing keeps its ranges apart.
-/

namespace Symbolication

namespace Range

variable {α β : Type}

theorem covers_iff (r : Range α) (a : UInt64) :
    r.covers a = true ↔ r.base.toNat ≤ a.toNat ∧ a.toNat < r.base.toNat + r.size.toNat := by
  rw [covers, Bool.and_eq_true, decide_eq_true_iff, decide_eq_true_iff,
    UInt64.le_iff_toNat_le, UInt64.lt_iff_toNat_lt]
  apply and_congr_right
  intro h
  rw [UInt64.toNat_sub_of_le a r.base h]
  omega

/-- Where a range starts at or below an address, the distance decides whether it covers it. -/
theorem covers_of_base_le (r : Range α) (a : UInt64) (h : r.base ≤ a) :
    r.covers a = decide (a - r.base < r.size) := by
  rw [covers, decide_eq_true h, Bool.true_and]

theorem isStorable_iff (r : Range α) :
    r.isStorable = true ↔ 0 < r.size.toNat ∧ r.base.toNat + r.size.toNat ≤ UInt64.size := by
  have hz : r.size ≠ 0 ↔ 0 < r.size.toNat := by
    rw [Nat.pos_iff_ne_zero, ne_eq, ne_eq, ← UInt64.toNat_inj]
    rfl
  rw [isStorable, Bool.and_eq_true, bne_iff_ne, decide_eq_true_iff, hz]

theorem covers_base (r : Range α) (h : r.isStorable = true) : r.covers r.base = true := by
  have hs := (isStorable_iff r).mp h
  rw [covers_iff]
  omega

theorem toNat_last (r : Range α) (h : r.isStorable = true) :
    r.last.toNat = r.base.toNat + r.size.toNat - 1 := by
  obtain ⟨hpos, hend⟩ := (isStorable_iff r).mp h
  have hone : (1 : UInt64) ≤ r.size := by
    rw [UInt64.le_iff_toNat_le]
    exact hpos
  have hsub : (r.size - 1).toNat = r.size.toNat - 1 := UInt64.toNat_sub_of_le r.size 1 hone
  have hsize : UInt64.size = 18446744073709551616 := rfl
  rw [last, UInt64.toNat_add, hsub, Nat.mod_eq_of_lt (by omega)]
  omega

theorem base_le_last (r : Range α) (h : r.isStorable = true) : r.base.toNat ≤ r.last.toNat := by
  have hlast := toNat_last r h
  have hsize := ((isStorable_iff r).mp h).1
  omega

/-- One range ends before the other begins. -/
def Apart (r : Range α) (s : Range β) : Prop :=
  r.base.toNat + r.size.toNat ≤ s.base.toNat ∨ s.base.toNat + s.size.toNat ≤ r.base.toNat

instance (r : Range α) (s : Range β) : Decidable (r.Apart s) :=
  inferInstanceAs (Decidable (_ ∨ _))

theorem apart_comm (r : Range α) (s : Range β) : r.Apart s ↔ s.Apart r := Or.comm

/-- Storable ranges are apart if no address belongs to both. -/
theorem apart_iff_no_common (r : Range α) (s : Range β) (hr : r.isStorable = true)
    (hs : s.isStorable = true) :
    r.Apart s ↔ ∀ a : UInt64, ¬(r.covers a = true ∧ s.covers a = true) := by
  constructor
  · intro h a hcommon
    obtain ⟨hra, hsa⟩ := hcommon
    rw [covers_iff] at hra hsa
    rcases h with h | h <;> omega
  · intro h
    have hrb := h r.base
    have hsb := h s.base
    simp only [covers_base r hr, covers_base s hs, true_and, and_true] at hrb hsb
    rw [covers_iff] at hrb hsb
    rw [isStorable_iff] at hr hs
    unfold Apart
    omega

end Range

namespace RangeMap

variable {α : Type}

theorem mem_toList_iff (m : RangeMap α) (r : Range α) :
    r ∈ m.toList ↔ (r.base, r.size, r.value) ∈ m.entries.entries := by
  rw [toList, List.mem_map]
  constructor
  · rintro ⟨e, he, rfl⟩
    exact he
  · intro h
    exact ⟨_, h, rfl⟩

@[simp] theorem toList_empty : (∅ : RangeMap α).toList = [] := rfl

/-- A map holds at most one range with a given base. -/
theorem eq_of_base_eq (m : RangeMap α) (r s : Range α) (hr : r ∈ m.toList) (hs : s ∈ m.toList)
    (h : r.base = s.base) : r = s := by
  rw [mem_toList_iff, ← OrderedMap.get?_eq_some_iff] at hr hs
  rw [h, hs] at hr
  obtain ⟨rb, rs, rv⟩ := r
  obtain ⟨sb, ss, sv⟩ := s
  simp only [Option.some.injEq, Prod.mk.injEq] at hr h
  obtain ⟨rfl, rfl⟩ := hr
  rw [h]

theorem map_rangeOfEntry_eq_some_iff (o : Option (UInt64 × UInt64 × α)) (r : Range α) :
    o.map rangeOfEntry = some r ↔ o = some (r.base, r.size, r.value) := by
  rw [Option.map_eq_some_iff]
  constructor
  · rintro ⟨e, he, rfl⟩
    exact he
  · intro h
    exact ⟨_, h, rfl⟩

/-- Of the ranges that start at or below an address, the nearest is the one that starts last. -/
theorem nearest?_eq_some_iff (m : RangeMap α) (a : UInt64) (r : Range α) :
    m.nearest? a = some r ↔ r ∈ m.toList ∧ r.base.toNat ≤ a.toNat ∧
      ∀ s ∈ m.toList, s.base.toNat ≤ a.toNat → s.base.toNat ≤ r.base.toNat := by
  rw [nearest?, map_rangeOfEntry_eq_some_iff, OrderedMap.atOrBelow?_eq_some_iff, ← mem_toList_iff]
  simp only [OrderedMap.compare_ne_gt_iff, OrderedMap.compare_eq_lt_iff]
  apply and_congr_right
  intro hr
  apply and_congr_right
  intro _
  constructor
  · intro h s hs hsa
    rcases h _ ((mem_toList_iff m s).mp hs) hsa with heq | hlt
    · have hb : s.base = r.base := congrArg Prod.fst heq
      exact Nat.le_of_eq (congrArg UInt64.toNat hb)
    · exact Nat.le_of_lt hlt
  · intro h e he hea
    have hes : rangeOfEntry e ∈ m.toList := List.mem_map_of_mem he
    by_cases hb : e.1 = r.base
    · have heq := eq_of_base_eq m (rangeOfEntry e) r hes hr hb
      exact Or.inl (by rw [← heq]; rfl)
    · have hle : e.1.toNat ≤ r.base.toNat := h _ hes hea
      have hne : e.1.toNat ≠ r.base.toNat := fun hn => hb (UInt64.toNat_inj.mp hn)
      exact Or.inr (by omega)

theorem base_le_of_nearest? (m : RangeMap α) (a : UInt64) (r : Range α) (h : m.nearest? a = some r) :
    r.base ≤ a :=
  UInt64.le_iff_toNat_le.mpr ((nearest?_eq_some_iff m a r).mp h).2.1

theorem base_le_of_find? (m : RangeMap α) (a : UInt64) (r : Range α) (h : m.find? a = some r) :
    r.base ≤ a :=
  base_le_of_nearest? m a r (Option.filter_eq_some_iff.mp h).1

theorem nearest?_eq_none_iff (m : RangeMap α) (a : UInt64) :
    m.nearest? a = none ↔ ∀ s ∈ m.toList, a.toNat < s.base.toNat := by
  have hgt (x : UInt64) : compare x a = .gt ↔ a.toNat < x.toNat := by
    rw [← Decidable.not_iff_not, ← ne_eq, OrderedMap.compare_ne_gt_iff, Nat.not_lt]
  rw [nearest?, Option.map_eq_none_iff, OrderedMap.atOrBelow?_eq_none_iff]
  simp only [hgt]
  constructor
  · intro h s hs
    exact h _ ((mem_toList_iff m s).mp hs)
  · intro h e he
    exact h (rangeOfEntry e) (List.mem_map_of_mem he)

/-- Some range starts between two addresses if the nearest one to the upper address does. -/
theorem any_nearest?_iff (m : RangeMap α) (lo hi : UInt64) :
    (m.nearest? hi).any (fun r => lo ≤ r.base) = true ↔
      ∃ s ∈ m.toList, lo ≤ s.base ∧ s.base ≤ hi := by
  cases hn : m.nearest? hi with
  | none =>
    have habove := (nearest?_eq_none_iff m hi).mp hn
    simp only [Option.any_none, Bool.false_eq_true, false_iff]
    intro h
    obtain ⟨s, hs, -, hle⟩ := h
    have hlt := habove s hs
    rw [UInt64.le_iff_toNat_le] at hle
    omega
  | some r =>
    obtain ⟨hr, hle, hmax⟩ := (nearest?_eq_some_iff m hi r).mp hn
    simp only [Option.any_some, decide_eq_true_iff, UInt64.le_iff_toNat_le]
    constructor
    · intro h
      exact ⟨r, hr, h, hle⟩
    · intro h
      obtain ⟨s, hs, hlo, hhi⟩ := h
      exact Nat.le_trans hlo (hmax s hs hhi)

theorem isEmpty_between_iff (m : RangeMap α) (lo hi : UInt64) :
    (m.entries.between lo hi).isEmpty = true ↔
      ∀ s ∈ m.toList, ¬(lo.toNat ≤ s.base.toNat ∧ s.base.toNat ≤ hi.toNat) := by
  have hmem := m.entries.mem_between_toNat_iff lo hi
  rw [List.isEmpty_iff, List.eq_nil_iff_forall_not_mem]
  constructor
  · intro h s hs hin
    exact h _ ((hmem _).mpr ⟨(mem_toList_iff m s).mp hs, hin⟩)
  · intro h e he
    obtain ⟨hem, hin⟩ := (hmem e).mp he
    exact h (rangeOfEntry e) (List.mem_map_of_mem hem) hin

/-- `s` is the nearest range that starts below `a`, and it reaches `a`. -/
def ReachedFrom (m : RangeMap α) (a : UInt64) (s : Range α) : Prop :=
  s ∈ m.toList ∧ s.base.toNat < a.toNat ∧ s.covers a = true ∧
    ∀ t ∈ m.toList, t.base.toNat < a.toNat → t.base.toNat ≤ s.base.toNat

theorem any_below?_iff (m : RangeMap α) (a : UInt64) :
    ((m.entries.below? a).map rangeOfEntry).any (·.covers a) = true ↔ ∃ s, m.ReachedFrom a s := by
  cases hb : m.entries.below? a with
  | none =>
    have hnone := OrderedMap.below?_eq_none_iff.mp hb
    simp only [Option.map_none, Option.any_none, Bool.false_eq_true, false_iff]
    intro h
    obtain ⟨s, hs, hlt, -, -⟩ := h
    have hentry := hnone _ ((mem_toList_iff m s).mp hs)
    exact hentry ((OrderedMap.compare_eq_lt_iff _ _).mpr hlt)
  | some e =>
    obtain ⟨he, hlt, hmax⟩ := OrderedMap.below?_eq_some_iff.mp hb
    have hmem : rangeOfEntry e ∈ m.toList := List.mem_map_of_mem he
    have hbelow : (rangeOfEntry e).base.toNat < a.toNat := (OrderedMap.compare_eq_lt_iff _ _).mp hlt
    have hnearest : ∀ t ∈ m.toList, t.base.toNat < a.toNat →
        t.base.toNat ≤ (rangeOfEntry e).base.toNat := by
      intro t ht hta
      have hentry := hmax _ ((mem_toList_iff m t).mp ht) ((OrderedMap.compare_eq_lt_iff _ _).mpr hta)
      rcases hentry with heq | hless
      · have hbase : t.base = e.1 := congrArg Prod.fst heq
        exact Nat.le_of_eq (congrArg UInt64.toNat hbase)
      · exact Nat.le_of_lt ((OrderedMap.compare_eq_lt_iff _ _).mp hless)
    simp only [Option.map_some, Option.any_some]
    constructor
    · intro hcovers
      exact ⟨_, hmem, hbelow, hcovers, hnearest⟩
    · intro h
      obtain ⟨s, hs, hsa, hcovers, hgreatest⟩ := h
      -- Both are the nearest, so they are one range.
      have hle := hgreatest _ hmem hbelow
      have hge := hnearest s hs hsa
      have hbase : s.base = (rangeOfEntry e).base := UInt64.toNat_inj.mp (Nat.le_antisymm hge hle)
      rw [← eq_of_base_eq m s _ hs hmem hbase]
      exact hcovers

/-- A range meets a map through a range that starts inside it, or through one that reaches it from
below. -/
theorem meets_iff (m : RangeMap α) (r : Range α) :
    m.meets r = true ↔
      (∃ s ∈ m.toList, r.base.toNat ≤ s.base.toNat ∧ s.base.toNat ≤ r.last.toNat) ∨
      ∃ s, m.ReachedFrom r.base s := by
  have hinside : (!(m.entries.between r.base r.last).isEmpty) = true ↔
      ∃ s ∈ m.toList, r.base.toNat ≤ s.base.toNat ∧ s.base.toNat ≤ r.last.toNat := by
    rw [Bool.not_eq_true', ← Bool.not_eq_true, isEmpty_between_iff]
    push Not
    rfl
  rw [meets, Bool.or_eq_true, hinside, any_below?_iff]

theorem meets_of_mem (m : RangeMap α) (r s : Range α) (hr : r.isStorable = true) (hs : s ∈ m.toList)
    (hbase : s.base = r.base) : m.meets r = true := by
  rw [meets_iff]
  refine Or.inl ⟨s, hs, ?_⟩
  rw [hbase]
  exact ⟨Nat.le_refl _, Range.base_le_last r hr⟩

theorem store?_eq_some_iff (m n : RangeMap α) (r : Range α) :
    m.store? r = some n ↔ (r.isStorable = true ∧ m.meets r = false) ∧
      n = ⟨m.entries.insert r.base (r.size, r.value)⟩ := by
  rw [store?, Option.ite_none_right_eq_some, Bool.and_eq_true, Bool.not_eq_true', Option.some.injEq]
  apply and_congr_right
  intro _
  exact eq_comm

/-- A map that has stored a range holds that range and its old ones. -/
theorem mem_toList_of_store? {m n : RangeMap α} (r s : Range α) (hn : m.store? r = some n) :
    s ∈ n.toList ↔ s = r ∨ s ∈ m.toList := by
  obtain ⟨⟨hr, hfree⟩, rfl⟩ := (store?_eq_some_iff m n r).mp hn
  have heq : (s.base, s.size, s.value) = (r.base, r.size, r.value) ↔ s = r := by
    cases s
    cases r
    simp
  rw [mem_toList_iff, OrderedMap.mem_entries_insert_iff, heq, ← mem_toList_iff]
  constructor
  · intro hs
    exact hs.imp_right And.left
  · intro hs
    -- A range with the base of `r` would have kept `r` out.
    refine hs.imp_right fun hold => ⟨hold, fun hbase => ?_⟩
    rw [meets_of_mem m r s hr hold hbase] at hfree
    cases hfree

/-- Every range of the map is storable, and any two are apart. -/
structure Disjoint (m : RangeMap α) : Prop where
  storable : ∀ r ∈ m.toList, r.isStorable = true
  apart : ∀ r ∈ m.toList, ∀ s ∈ m.toList, r ≠ s → r.Apart s

theorem disjoint_empty : (∅ : RangeMap α).Disjoint := by
  constructor <;> simp

/-- Ranges that cover one address are the same range. -/
theorem Disjoint.eq_of_covers {m : RangeMap α} (h : m.Disjoint) (r s : Range α) (a : UInt64)
    (hr : r ∈ m.toList) (hs : s ∈ m.toList) (hra : r.covers a = true) (hsa : s.covers a = true) :
    r = s := by
  rw [Range.covers_iff] at hra hsa
  by_cases heq : r = s
  · exact heq
  · rcases h.apart r hr s hs heq with hap | hap <;> omega

/-- A look-up finds the range that covers the address, whichever range starts nearest. -/
theorem Disjoint.find?_eq_some_iff {m : RangeMap α} (h : m.Disjoint) (a : UInt64) (r : Range α) :
    m.find? a = some r ↔ r ∈ m.toList ∧ r.covers a = true := by
  rw [find?, Option.filter_eq_some_iff, nearest?_eq_some_iff]
  constructor
  · intro hfound
    obtain ⟨⟨hr, -, -⟩, hra⟩ := hfound
    exact ⟨hr, hra⟩
  · intro hcovers
    obtain ⟨hr, hra⟩ := hcovers
    refine ⟨⟨hr, ((Range.covers_iff r a).mp hra).1, ?_⟩, hra⟩
    intro s hs hsa
    -- A range that starts between `r` and the address would start inside `r`.
    by_cases heq : r = s
    · exact Nat.le_of_eq (congrArg (fun q => q.base.toNat) heq.symm)
    · have hsize := ((Range.isStorable_iff s).mp (h.storable s hs)).1
      rw [Range.covers_iff] at hra
      rcases h.apart r hr s hs heq with hap | hap <;> omega

theorem Disjoint.find?_eq_none_iff {m : RangeMap α} (h : m.Disjoint) (a : UInt64) :
    m.find? a = none ↔ ∀ r ∈ m.toList, r.covers a = false := by
  rw [Option.eq_none_iff_forall_ne_some]
  constructor
  · intro hn r hr
    rw [Bool.eq_false_iff]
    intro hra
    exact hn r ((h.find?_eq_some_iff a r).mpr ⟨hr, hra⟩)
  · intro hall r hr
    obtain ⟨hmem, hra⟩ := (h.find?_eq_some_iff a r).mp hr
    rw [hall r hmem] at hra
    exact Bool.false_ne_true hra

/-- Looking inside a new range and at its nearest lower neighbour finds every overlap. -/
theorem Disjoint.meets_eq_false_iff {m : RangeMap α} (h : m.Disjoint) (r : Range α)
    (hr : r.isStorable = true) : m.meets r = false ↔ ∀ s ∈ m.toList, r.Apart s := by
  have hlast := Range.toNat_last r hr
  have hsize := ((Range.isStorable_iff r).mp hr).1
  rw [← Bool.not_eq_true, meets_iff, not_or]
  constructor
  · -- A range that overlaps `r` starts inside `r` or covers the base of `r`.
    intro hfree s hs
    obtain ⟨hinside, hreached⟩ := hfree
    unfold Range.Apart
    by_contra hoverlap
    by_cases hbelow : s.base.toNat < r.base.toNat
    · have hcovers : s.covers r.base = true := by
        rw [Range.covers_iff]
        omega
      refine hreached ⟨s, hs, hbelow, hcovers, ?_⟩
      -- Any other range that starts below `r` ends before `s` begins.
      intro t ht htr
      by_cases heq : t = s
      · exact Nat.le_of_eq (congrArg (fun q => q.base.toNat) heq)
      · rcases h.apart t ht s hs heq with hap | hap <;> omega
    · exact hinside ⟨s, hs, by omega, by omega⟩
  · intro hall
    constructor
    · intro hinside
      obtain ⟨s, hs, hlo, hhi⟩ := hinside
      have hsz := ((Range.isStorable_iff s).mp (h.storable s hs)).1
      rcases hall s hs with hap | hap <;> omega
    · intro hreached
      obtain ⟨s, hs, hlt, hcovers, -⟩ := hreached
      rw [Range.covers_iff] at hcovers
      rcases hall s hs with hap | hap <;> omega

/-- A range is stored exactly if it is storable and apart from every range of the map. -/
theorem Disjoint.store?_eq_some_iff {m : RangeMap α} (h : m.Disjoint) (r : Range α)
    (n : RangeMap α) : m.store? r = some n ↔
      (r.isStorable = true ∧ ∀ s ∈ m.toList, r.Apart s) ∧
        n = ⟨m.entries.insert r.base (r.size, r.value)⟩ := by
  rw [RangeMap.store?_eq_some_iff]
  apply and_congr_left
  intro _
  apply and_congr_right
  intro hr
  exact h.meets_eq_false_iff r hr

theorem Disjoint.store?_eq_none_iff {m : RangeMap α} (h : m.Disjoint) (r : Range α) :
    m.store? r = none ↔ ¬(r.isStorable = true ∧ ∀ s ∈ m.toList, r.Apart s) := by
  rw [Option.eq_none_iff_forall_ne_some]
  simp only [ne_eq, h.store?_eq_some_iff, not_and]
  constructor
  · intro hn hs hap
    exact hn _ ⟨hs, hap⟩ rfl
  · intro hn n hstays _
    exact hn hstays.1 hstays.2

theorem Disjoint.store? {m n : RangeMap α} (h : m.Disjoint) (r : Range α)
    (hn : m.store? r = some n) : n.Disjoint := by
  obtain ⟨⟨hstorable, hap⟩, -⟩ := (h.store?_eq_some_iff r n).mp hn
  have hmem (s : Range α) := mem_toList_of_store? r s hn
  constructor
  · intro s hs
    rcases (hmem s).mp hs with rfl | hold
    · exact hstorable
    · exact h.storable s hold
  · intro s hs t ht hne
    rcases (hmem s).mp hs with hsr | hsm <;> rcases (hmem t).mp ht with htr | htm
    · exact absurd (hsr.trans htr.symm) hne
    · rw [hsr]
      exact hap t htm
    · rw [htr, Range.apart_comm]
      exact hap s hsm
    · exact h.apart s hsm t htm hne

end RangeMap

end Symbolication
