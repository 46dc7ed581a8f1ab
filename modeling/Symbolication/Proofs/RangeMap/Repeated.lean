import Symbolication.Proofs.RangeMap.Keep

/-!
Ranges that are offered again. Once a range was offered, the map holds something that it meets: itself,
or what it met the first time. Later ranges do not take that away, so a second pass over the same
ranges changes nothing. This is so for every map, also for one whose ranges overlap.
-/

namespace Symbolication.RangeMap

variable {α : Type}

/-- An offer that is refused leaves the map, and one that is taken up adds its range. -/
theorem offer_cases (m : RangeMap α) (r : Range α) :
    ((r.isStorable = true → m.meets r = true) ∧ m.offer r = m) ∨
      m.meets r = false ∧ ∀ s, s ∈ (m.offer r).toList ↔ s = r ∨ s ∈ m.toList := by
  unfold offer
  cases hn : m.store? r with
  | none =>
    refine Or.inl ⟨fun hr => ?_, rfl⟩
    by_contra hfree
    have hstored := (store?_eq_some_iff m _ r).mpr ⟨⟨hr, Bool.eq_false_iff.mpr hfree⟩, rfl⟩
    rw [hn] at hstored
    cases hstored
  | some n =>
    obtain ⟨⟨-, hfree⟩, -⟩ := (store?_eq_some_iff m n r).mp hn
    exact Or.inr ⟨hfree, fun s => mem_toList_of_store? r s hn⟩

theorem meets_offer_self (m : RangeMap α) (r : Range α) (hr : r.isStorable = true) :
    (m.offer r).meets r = true := by
  rcases m.offer_cases r with ⟨hmeets, hsame⟩ | ⟨-, hmem⟩
  · rw [hsame]
    exact hmeets hr
  · have hthere : r ∈ (m.offer r).toList := (hmem r).mpr (Or.inl rfl)
    exact meets_of_mem _ r r hr hthere rfl

theorem offer_eq_self_iff (m : RangeMap α) (r : Range α) :
    m.offer r = m ↔ (r.isStorable = true → m.meets r = true) := by
  constructor
  · intro h hr
    rw [← h]
    exact meets_offer_self m r hr
  · intro h
    rcases m.offer_cases r with ⟨-, hsame⟩ | ⟨hfree, -⟩
    · exact hsame
    · have hr : r.isStorable = false := by
        rw [← Bool.not_eq_true]
        intro hr
        rw [h hr] at hfree
        cases hfree
      exact offer_of_not_storable m r hr

/-- A range that is refused is still refused after another one was offered. -/
theorem meets_offer (m : RangeMap α) (r s : Range α) (h : m.meets r = true) :
    (m.offer s).meets r = true := by
  rcases m.offer_cases s with ⟨-, hsame⟩ | ⟨hfree, hmem⟩
  · rwa [hsame]
  have hapart := mt (meets_iff m s).mpr (Bool.eq_false_iff.mp hfree)
  rw [meets_iff] at h ⊢
  rcases h with hinside | hreached
  · obtain ⟨t, ht, hspan⟩ := hinside
    exact Or.inl ⟨t, (hmem t).mpr (Or.inr ht), hspan⟩
  · obtain ⟨t, ht, hlt, hcovers, hnearest⟩ := hreached
    refine Or.inr ⟨t, (hmem t).mpr (Or.inr ht), hlt, hcovers, ?_⟩
    intro u hu hua
    rcases (hmem u).mp hu with hnew | hold
    · -- If `s` came between the two, `t` would have reached it and kept it out.
      by_contra hbetween
      rw [hnew] at hua hbetween
      have hcoversBase : t.covers s.base = true := by
        rw [Range.covers_iff] at hcovers ⊢
        omega
      refine hapart (Or.inr ⟨t, ht, by omega, hcoversBase, ?_⟩)
      intro v hv hvs
      exact hnearest v hv (by omega)
    · exact hnearest u hold hua

/-- Offering the same ranges again changes nothing. -/
theorem offerAll_offerAll (m : RangeMap α) (rs : List (Range α)) :
    (m.offerAll rs).offerAll rs = m.offerAll rs := by
  apply OrderedMap.foldl_foldl_of_settles
  · intro m r
    exact (offer_eq_self_iff _ r).mpr (meets_offer_self m r)
  · intro m r s hsettled
    have hmeets := (offer_eq_self_iff m r).mp hsettled
    exact (offer_eq_self_iff _ r).mpr fun hr => meets_offer m r s (hmeets hr)

end Symbolication.RangeMap
