import Symbolication.Proofs.RangeMap.Stored

/-!
The ranges that a map refuses when one after the other is offered to it. Every range that is offered is
stored or refused, so the map grows by as many as are not refused; and a range is refused for a reason
that lies in the range or in what the map held when its turn came.
-/

namespace Symbolication.RangeMap

variable {α : Type}

/-- The ranges that are refused when each is offered in turn, in the order of the offers. -/
def refused (m : RangeMap α) : List (Range α) → List (Range α)
  | [] => []
  | r :: rs => (if (m.store? r).isNone then [r] else []) ++ (m.offer r).refused rs

@[simp] theorem refused_nil (m : RangeMap α) : m.refused [] = [] := rfl

theorem refused_cons (m : RangeMap α) (r : Range α) (rs : List (Range α)) :
    m.refused (r :: rs) = m.refused [r] ++ (m.offer r).refused rs := by
  simp [refused]

theorem refused_append (m : RangeMap α) (rs ts : List (Range α)) :
    m.refused (rs ++ ts) = m.refused rs ++ (m.offerAll rs).refused ts := by
  induction rs generalizing m with
  | nil => rfl
  | cons r rs ih =>
    rw [List.cons_append, refused_cons, ih, m.refused_cons r rs, offerAll_cons, List.append_assoc]

/-- An offer makes the map greater by the range, or else the range is refused. -/
theorem size_offer (m : RangeMap α) (r : Range α) :
    (m.offer r).size + (m.refused [r]).length = m.size + 1 := by
  unfold offer
  cases hn : m.store? r with
  | none => simp [refused, hn]
  | some n =>
    have hlength := (toList_perm_of_store? r hn).length_eq
    simp [refused, hn, size_eq_length, hlength]

theorem size_offerAll (m : RangeMap α) (rs : List (Range α)) :
    (m.offerAll rs).size + (m.refused rs).length = m.size + rs.length := by
  induction rs generalizing m with
  | nil => rfl
  | cons r rs ih =>
    have hfirst := m.size_offer r
    have hrest := ih (m.offer r)
    rw [refused_cons, offerAll_cons, List.length_append, List.length_cons]
    omega

/-- A range that is refused was refused by the map as the ranges before it had left it. -/
theorem exists_of_mem_refused (m : RangeMap α) (rs : List (Range α)) (r : Range α)
    (h : r ∈ m.refused rs) :
    ∃ front back, rs = front ++ r :: back ∧ (m.offerAll front).store? r = none := by
  induction rs generalizing m with
  | nil => cases h
  | cons s rs ih =>
    rw [refused, List.mem_append] at h
    rcases h with hfirst | hlater
    · split at hfirst
      · rename_i hnone
        rw [List.mem_singleton.mp hfirst]
        exact ⟨[], rs, rfl, Option.isNone_iff_eq_none.mp hnone⟩
      · cases hfirst
    · obtain ⟨front, back, rfl, hnone⟩ := ih _ hlater
      exact ⟨s :: front, back, rfl, hnone⟩

/-- The table `before` was offered each of the ranges once, in their order, which made it `after`, and
for those that it refused there are the warnings, with a reason for each. -/
structure Offered {β : Type} (before after : RangeMap α) (ranges : List (Range α)) (warning : Range α → β)
    (warnings : List β) : Prop where
  stored : after = before.offerAll ranges
  warned : warnings = (before.refused ranges).map warning
  reason : ∀ w ∈ warnings, ∃ front r back, ranges = front ++ r :: back ∧ warning r = w ∧
    (r.size.toNat = 0 ∨ UInt64.size < r.base.toNat + r.size.toNat ∨
      ∃ s ∈ (before.offerAll front).toList, r.Overlaps s)

theorem Disjoint.offered {β : Type} {before : RangeMap α} (h : before.Disjoint)
    (ranges : List (Range α)) (warning : Range α → β) :
    Offered before (before.offerAll ranges) ranges warning ((before.refused ranges).map warning) where
  stored := rfl
  warned := rfl
  reason := by
    intro w hw
    obtain ⟨r, hr, rfl⟩ := List.mem_map.mp hw
    obtain ⟨front, back, hranges, hnone⟩ := before.exists_of_mem_refused ranges r hr
    exact ⟨front, r, back, hranges, rfl, ((h.offerAll front).store?_eq_none_iff_overlaps r).mp hnone⟩

/-- No range is lost: the table grows by those that are not warned of. -/
theorem Offered.length_ranges {β : Type} {before after : RangeMap α} {ranges : List (Range α)}
    {warning : Range α → β} {warnings : List β} (h : Offered before after ranges warning warnings) :
    before.size + ranges.length = after.size + warnings.length := by
  rw [h.stored, h.warned, List.length_map, size_offerAll]

end Symbolication.RangeMap
