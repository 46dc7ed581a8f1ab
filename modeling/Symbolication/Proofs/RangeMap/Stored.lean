import Symbolication.Proofs.RangeMap.Keep

/-!
What storing and looking up come to in a map that began empty, after ranges of which some were taken and
some were refused. A new range is taken exactly if it holds an address, ends at or below the greatest
one and has no address in common with a range of the map. A look-up answers what looking at all the
ranges would.
-/

namespace Symbolication

namespace Range

variable {α β : Type}

/-- `a` is one of the `size` numbers from the base on, whether or not there is such an address. -/
def Contains (r : Range α) (a : Nat) : Prop :=
  r.base.toNat ≤ a ∧ a < r.base.toNat + r.size.toNat

instance (r : Range α) (a : Nat) : Decidable (r.Contains a) :=
  inferInstanceAs (Decidable (_ ∧ _))

theorem covers_iff_contains (r : Range α) (a : UInt64) :
    r.covers a = true ↔ r.Contains a.toNat :=
  covers_iff r a

def Overlaps (r : Range α) (s : Range β) : Prop := ∃ a, r.Contains a ∧ s.Contains a

theorem Overlaps.size_pos {r : Range α} {s : Range β} (h : r.Overlaps s) :
    0 < r.size.toNat ∧ 0 < s.size.toNat := by
  obtain ⟨a, hr, hs⟩ := h
  unfold Contains at hr hs
  omega

/-- Of two ranges that are not apart, the base of one lies in the other. -/
theorem overlaps_iff (r : Range α) (s : Range β) :
    r.Overlaps s ↔ 0 < r.size.toNat ∧ 0 < s.size.toNat ∧ ¬r.Apart s := by
  constructor
  · intro h
    obtain ⟨hr, hs⟩ := h.size_pos
    refine ⟨hr, hs, fun hap => ?_⟩
    obtain ⟨a, hra, hsa⟩ := h
    unfold Contains at hra hsa
    rcases hap with hap | hap <;> omega
  · intro ⟨hr, hs, hap⟩
    unfold Apart at hap
    have hcommon : r.Contains (max r.base.toNat s.base.toNat) ∧
        s.Contains (max r.base.toNat s.base.toNat) := by
      unfold Contains
      omega
    exact ⟨_, hcommon⟩

theorem not_overlaps_iff_apart (r : Range α) (s : Range β) (hr : 0 < r.size.toNat)
    (hs : 0 < s.size.toNat) : ¬r.Overlaps s ↔ r.Apart s := by
  rw [overlaps_iff]
  simp [hr, hs]

end Range

namespace RangeMap

variable {α : Type}

theorem size_eq_length (m : RangeMap α) : m.size = m.toList.length :=
  (List.length_map _).symm

theorem nodup_toList (m : RangeMap α) : m.toList.Nodup := by
  have hbases : (m.toList.map Range.base).Nodup := by
    rw [toList, List.map_map]
    exact m.entries.nodup_keys
  exact hbases.of_map _

/-- A range that is stored is the one that the map has more than before. -/
theorem toList_perm_of_store? {m n : RangeMap α} (r : Range α) (hn : m.store? r = some n) :
    n.toList.Perm (r :: m.toList) := by
  obtain ⟨⟨hstorable, hfree⟩, -⟩ := (store?_eq_some_iff m n r).mp hn
  have hnew : r ∉ m.toList := by
    intro hmem
    rw [meets_of_mem m r r hstorable hmem rfl] at hfree
    cases hfree
  refine (List.perm_ext_iff_of_nodup n.nodup_toList (m.nodup_toList.cons hnew)).mpr fun s => ?_
  rw [mem_toList_of_store? r s hn, List.mem_cons]

namespace Disjoint

variable {m : RangeMap α} (h : m.Disjoint)

include h

theorem size_pos (s : Range α) (hs : s ∈ m.toList) : 0 < s.size.toNat :=
  ((Range.isStorable_iff s).mp (h.storable s hs)).1

theorem pairwise_not_overlaps : m.toList.Pairwise fun s t => ¬s.Overlaps t := by
  apply m.nodup_toList.pairwise_of_forall_ne
  intro s hs t ht hne
  rw [s.not_overlaps_iff_apart t (h.size_pos s hs) (h.size_pos t ht)]
  exact h.apart s hs t ht hne

/-- Why a range is refused: it is empty, it goes past the greatest address, or it overlaps a range of
the map. -/
theorem store?_eq_none_iff_overlaps (r : Range α) :
    m.store? r = none ↔ r.size.toNat = 0 ∨ UInt64.size < r.base.toNat + r.size.toNat ∨
      ∃ s ∈ m.toList, r.Overlaps s := by
  rw [h.store?_eq_none_iff, Range.isStorable_iff]
  by_cases hr : 0 < r.size.toNat
  · have hapart : (∀ s ∈ m.toList, r.Apart s) ↔ ¬∃ s ∈ m.toList, r.Overlaps s := by
      simp only [not_exists, not_and]
      exact forall₂_congr fun s hs => (r.not_overlaps_iff_apart s hr (h.size_pos s hs)).symm
    have hne : r.size.toNat ≠ 0 := Nat.pos_iff_ne_zero.mp hr
    rw [hapart]
    simp only [hr, hne, true_and, false_or, not_and_or, not_not, Nat.not_le]
  · simp [Nat.eq_zero_of_not_pos hr]

theorem isSome_store?_iff (r : Range α) :
    (m.store? r).isSome = true ↔ 0 < r.size.toNat ∧
      r.base.toNat + (r.size.toNat - 1) < UInt64.size ∧ ∀ s ∈ m.toList, ¬r.Overlaps s := by
  rw [Option.isSome_iff_ne_none, ne_eq, h.store?_eq_none_iff_overlaps]
  have hfits : ¬r.size.toNat = 0 ∧ r.base.toNat + r.size.toNat ≤ UInt64.size ↔
      0 < r.size.toNat ∧ r.base.toNat + (r.size.toNat - 1) < UInt64.size := by omega
  simp only [not_or, not_exists, not_and, Nat.not_lt]
  rw [← and_assoc, hfits, and_assoc]

end Disjoint

/-- The ranges of the map, looked at one after the other, contain an address as the look-up says. -/
theorem Disjoint.filter_contains {m : RangeMap α} (h : m.Disjoint) (a : UInt64) :
    m.toList.filter (fun r => r.Contains a.toNat) = (m.find? a).toList := by
  have hmem (r : Range α) :
      r ∈ m.toList.filter (fun r => r.Contains a.toNat) ↔ m.find? a = some r := by
    rw [List.mem_filter, decide_eq_true_iff, ← Range.covers_iff_contains, h.find?_eq_some_iff]
  cases hfind : m.find? a with
  | none =>
    rw [Option.toList_none, List.eq_nil_iff_forall_not_mem]
    intro r hr
    rw [hmem, hfind] at hr
    cases hr
  | some r =>
    rw [Option.toList_some, ← List.perm_singleton]
    refine (List.perm_ext_iff_of_nodup (m.nodup_toList.filter _) (List.nodup_singleton r)).mpr ?_
    intro s
    rw [hmem, hfind, List.mem_singleton, Option.some.injEq, eq_comm]

/-- Whatever ranges were offered to an empty map, those that it holds are neither empty nor end past the
greatest address, and no two overlap. It takes one more range exactly if this stays so, and then holds
that range beside the others; else it stays as it is. -/
theorem stored_apart_and_store_exact (rs : List (Range α)) :
    let m := (∅ : RangeMap α).offerAll rs
    (∀ s ∈ m.toList, 0 < s.size.toNat ∧ s.base.toNat + (s.size.toNat - 1) < UInt64.size) ∧
    m.toList.Pairwise (fun s t => ¬s.Overlaps t) ∧
    ∀ r : Range α,
      ((m.store? r).isSome = true ↔ 0 < r.size.toNat ∧
        r.base.toNat + (r.size.toNat - 1) < UInt64.size ∧ ∀ s ∈ m.toList, ¬r.Overlaps s) ∧
      if (m.store? r).isSome = true then (m.offer r).toList.Perm (r :: m.toList)
      else m.offer r = m := by
  intro m
  have hdisjoint : m.Disjoint := disjoint_empty.offerAll rs
  refine ⟨?_, hdisjoint.pairwise_not_overlaps, fun r => ⟨hdisjoint.isSome_store?_iff r, ?_⟩⟩
  · intro s hs
    obtain ⟨hsize, hend⟩ := (Range.isStorable_iff s).mp (hdisjoint.storable s hs)
    exact ⟨hsize, by omega⟩
  · unfold offer
    cases hn : m.store? r with
    | none => rfl
    | some n => exact toList_perm_of_store? r hn

/-- Ranges that touch are taken, also the one that ends with the greatest address. -/
example : (((∅ : RangeMap Char).offerAll [⟨0x100, 0x10, 'a'⟩, ⟨0x108, 0x10, 'b'⟩, ⟨0xF8, 0x10, 'c'⟩,
    ⟨0x110, 0x10, 'd'⟩, ⟨0x200, 0, 'e'⟩, ⟨0xFFFFFFFFFFFFFFFF, 2, 'f'⟩,
    ⟨0xFFFFFFFFFFFFFFFF, 1, 'g'⟩]).toList.map Range.value) = ['a', 'd', 'g'] := by decide

/-- Whatever ranges were offered to an empty map, a look-up finds the one range of the map that contains
the address, and none only if there is none. The nearest range is the one that starts last among those
that start at or below the address, and there is none only if all start above it. -/
theorem lookUps_scan_stored (rs : List (Range α)) (a : UInt64) :
    let m := (∅ : RangeMap α).offerAll rs
    m.toList.filter (fun r => r.Contains a.toNat) = (m.find? a).toList ∧
    (∀ r, m.find? a = some r ↔ r ∈ m.toList ∧ r.Contains a.toNat) ∧
    (m.find? a = none ↔ ∀ r ∈ m.toList, ¬r.Contains a.toNat) ∧
    (∀ r, m.nearest? a = some r ↔ r ∈ m.toList ∧ r.base.toNat ≤ a.toNat ∧
      ∀ s ∈ m.toList, s.base.toNat ≤ a.toNat → s.base.toNat ≤ r.base.toNat) ∧
    (m.nearest? a = none ↔ ∀ r ∈ m.toList, a.toNat < r.base.toNat) := by
  intro m
  have hdisjoint : m.Disjoint := disjoint_empty.offerAll rs
  refine ⟨hdisjoint.filter_contains a, ?_, ?_, m.nearest?_eq_some_iff a, m.nearest?_eq_none_iff a⟩
  · intro r
    rw [hdisjoint.find?_eq_some_iff, Range.covers_iff_contains]
  · rw [hdisjoint.find?_eq_none_iff]
    simp only [Bool.eq_false_iff, ne_eq, Range.covers_iff_contains]

end RangeMap

end Symbolication
