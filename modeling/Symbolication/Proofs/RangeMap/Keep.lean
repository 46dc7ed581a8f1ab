import Symbolication.Proofs.RangeMap.Disjoint

/-!
Which of a sequence of ranges stay when each is offered to a map in turn. The rule is stated on the
sequence alone: a range stays if it is storable and apart from every range that stayed before it. A
map that was empty at first holds exactly the ranges that stay. Of ranges that keep apart all those
that can be stored stay, so they may be offered in any order.
-/

namespace Symbolication

namespace Range

variable {α β : Type}

/-- The ranges that stay, when those of `kept` have stayed already. -/
def keepAfter (kept : List (Range α)) : List (Range α) → List (Range α)
  | [] => kept
  | r :: rs =>
    if r.isStorable = true ∧ ∀ s ∈ kept, r.Apart s then keepAfter (kept ++ [r]) rs
    else keepAfter kept rs

/-- The ranges that stay: first come, first served. -/
def keep (rs : List (Range α)) : List (Range α) := keepAfter [] rs

theorem mem_keepAfter (kept rs : List (Range α)) (r : Range α) (h : r ∈ keepAfter kept rs) :
    r ∈ kept ∨ r ∈ rs := by
  induction rs generalizing kept with
  | nil => exact Or.inl h
  | cons s rs ih =>
    rw [keepAfter] at h
    split at h
    · rcases ih _ h with hk | hr
      · rcases List.mem_append.mp hk with hk | hs
        · exact Or.inl hk
        · exact Or.inr (List.mem_cons.mpr (Or.inl (List.mem_singleton.mp hs)))
      · exact Or.inr (List.mem_cons_of_mem _ hr)
    · exact (ih _ h).imp_right (List.mem_cons_of_mem _)

theorem mem_of_mem_keep (rs : List (Range α)) (r : Range α) (h : r ∈ keep rs) : r ∈ rs := by
  rcases mem_keepAfter [] rs r h with hnil | hmem
  · exact absurd hnil List.not_mem_nil
  · exact hmem

def map (f : α → β) (r : Range α) : Range β := ⟨r.base, r.size, f r.value⟩

theorem keepAfter_map (f : α → β) (kept rs : List (Range α)) :
    keepAfter (kept.map (map f)) (rs.map (map f)) = (keepAfter kept rs).map (map f) := by
  induction rs generalizing kept with
  | nil => rfl
  | cons r rs ih =>
    -- Whether a range stays does not depend on the values.
    have hcond : ((r.map f).isStorable = true ∧ ∀ s ∈ kept.map (map f), (r.map f).Apart s) ↔
        (r.isStorable = true ∧ ∀ s ∈ kept, r.Apart s) := by
      rw [List.forall_mem_map]
      rfl
    simp only [List.map_cons, keepAfter, hcond]
    split
    · rw [← ih, List.map_append, List.map_singleton]
    · exact ih kept

theorem keep_map (f : α → β) (rs : List (Range α)) :
    keep (rs.map (map f)) = (keep rs).map (map f) :=
  keepAfter_map f [] rs

/-- Any two of the ranges that can be stored are apart. -/
def Separate (rs : List (Range α)) : Prop := (rs.filter (·.isStorable)).Pairwise Apart

instance (rs : List (Range α)) : Decidable (Separate rs) :=
  inferInstanceAs (Decidable (List.Pairwise _ _))

theorem separate_map (f : α → β) (rs : List (Range α)) : Separate (rs.map (map f)) ↔ Separate rs := by
  unfold Separate
  rw [List.filter_map, List.pairwise_map]
  rfl

theorem Separate.perm {rs ts : List (Range α)} (h : Separate rs) (hperm : rs.Perm ts) :
    Separate ts :=
  (hperm.filter _).pairwise h fun {r s} hr => (apart_comm r s).mp hr

theorem keepAfter_of_pairwise (kept rs : List (Range α))
    (h : (kept ++ rs.filter (·.isStorable)).Pairwise Apart) :
    keepAfter kept rs = kept ++ rs.filter (·.isStorable) := by
  induction rs generalizing kept with
  | nil => exact (List.append_nil kept).symm
  | cons r rs ih =>
    rw [keepAfter]
    by_cases hr : r.isStorable = true
    · rw [List.filter_cons_of_pos hr] at h ⊢
      rw [List.append_cons] at h
      -- `r` is apart from all that stayed before it.
      have hfront : (kept ++ [r]).Pairwise Apart := (List.pairwise_append.mp h).1
      have hkept : ∀ s ∈ kept, r.Apart s := by
        intro s hs
        have hsr := (List.pairwise_append.mp hfront).2.2 s hs r (List.mem_singleton_self r)
        exact (apart_comm s r).mp hsr
      rw [if_pos ⟨hr, hkept⟩, ih _ h]
      exact (List.append_cons kept r _).symm
    · rw [List.filter_cons_of_neg hr] at h ⊢
      rw [if_neg fun hstays => hr hstays.1]
      exact ih kept h

theorem Separate.keep_eq {rs : List (Range α)} (h : Separate rs) :
    keep rs = rs.filter (·.isStorable) :=
  keepAfter_of_pairwise [] rs h

end Range

namespace RangeMap

variable {α : Type}

/-- The map with `r` stored, or as it was if `r` is refused. -/
def offer (m : RangeMap α) (r : Range α) : RangeMap α := (m.store? r).getD m

def offerAll (m : RangeMap α) (rs : List (Range α)) : RangeMap α := rs.foldl offer m

@[simp] theorem offerAll_nil (m : RangeMap α) : m.offerAll [] = m := rfl

@[simp] theorem offerAll_cons (m : RangeMap α) (r : Range α) (rs : List (Range α)) :
    m.offerAll (r :: rs) = (m.offer r).offerAll rs := rfl

theorem offerAll_append (m : RangeMap α) (rs ts : List (Range α)) :
    m.offerAll (rs ++ ts) = (m.offerAll rs).offerAll ts := List.foldl_append

theorem offer_of_not_storable (m : RangeMap α) (r : Range α) (h : r.isStorable = false) :
    m.offer r = m := by
  simp [offer, store?, h]

theorem Disjoint.offer {m : RangeMap α} (h : m.Disjoint) (r : Range α) : (m.offer r).Disjoint := by
  unfold RangeMap.offer
  cases hn : m.store? r with
  | none => exact h
  | some n => exact h.store? r hn

theorem Disjoint.offerAll {m : RangeMap α} (h : m.Disjoint) (rs : List (Range α)) :
    (m.offerAll rs).Disjoint := by
  induction rs generalizing m with
  | nil => exact h
  | cons r rs ih => exact ih (h.offer r)

theorem Disjoint.mem_toList_offerAll {m : RangeMap α} (h : m.Disjoint) (kept rs : List (Range α))
    (hkept : ∀ s, s ∈ m.toList ↔ s ∈ kept) (s : Range α) :
    s ∈ (m.offerAll rs).toList ↔ s ∈ Range.keepAfter kept rs := by
  induction rs generalizing m kept with
  | nil => exact hkept s
  | cons r rs ih =>
    rw [offerAll_cons, Range.keepAfter, RangeMap.offer]
    have hcond : (∀ t ∈ m.toList, r.Apart t) ↔ ∀ t ∈ kept, r.Apart t := by
      simp only [hkept]
    -- What stayed so far is what the map holds, so both decide alike about `r`.
    split
    · rename_i hstay
      rw [← hcond] at hstay
      have hn := (h.store?_eq_some_iff r _).mpr ⟨hstay, rfl⟩
      rw [hn, Option.getD_some]
      apply ih (h.store? r hn)
      intro t
      rw [mem_toList_of_store? r t hn, hkept, List.mem_append, List.mem_singleton]
      exact Or.comm
    · rename_i hgo
      rw [← hcond] at hgo
      rw [(h.store?_eq_none_iff r).mpr hgo, Option.getD_none]
      exact ih h kept hkept

/-- A map filled by offering holds the ranges that stay. -/
theorem mem_toList_offerAll_empty (rs : List (Range α)) (s : Range α) :
    s ∈ ((∅ : RangeMap α).offerAll rs).toList ↔ s ∈ Range.keep rs :=
  disjoint_empty.mem_toList_offerAll [] rs (fun _ => by simp) s

/-- Maps that hold the same ranges are equal. -/
theorem ext_mem_toList {m n : RangeMap α} (h : ∀ r, r ∈ m.toList ↔ r ∈ n.toList) : m = n := by
  have hentries : m.entries.entries = n.entries.entries := by
    apply OrderedMap.eq_of_mem_iff m.entries.ascending n.entries.ascending
    intro e
    have he := h (rangeOfEntry e)
    rwa [mem_toList_iff, mem_toList_iff] at he
  cases m
  cases n
  exact congrArg RangeMap.mk (OrderedMap.ext hentries)

/-- The order in which ranges are offered makes no difference if they keep apart. -/
theorem offerAll_empty_perm {rs ts : List (Range α)} (hperm : rs.Perm ts) (h : Range.Separate rs) :
    (∅ : RangeMap α).offerAll rs = (∅ : RangeMap α).offerAll ts := by
  apply ext_mem_toList
  intro r
  rw [mem_toList_offerAll_empty, mem_toList_offerAll_empty, h.keep_eq, (h.perm hperm).keep_eq]
  exact (hperm.filter _).mem_iff

/-- A look-up in a map filled by offering is a search among the ranges that stay. -/
theorem find?_offerAll_empty (rs : List (Range α)) (a : UInt64) :
    ((∅ : RangeMap α).offerAll rs).find? a = (Range.keep rs).find? (·.covers a) := by
  have hdis := disjoint_empty.offerAll rs
  cases hf : (Range.keep rs).find? (·.covers a) with
  | none =>
    rw [hdis.find?_eq_none_iff]
    intro r hr
    rw [mem_toList_offerAll_empty] at hr
    simpa using List.find?_eq_none.mp hf r hr
  | some r =>
    have hcovers : r.covers a = true := List.find?_some (p := fun s : Range α => s.covers a) hf
    rw [hdis.find?_eq_some_iff, mem_toList_offerAll_empty]
    exact ⟨List.mem_of_find?_eq_some hf, hcovers⟩

end RangeMap

/-- At most one of the ranges that stay covers an address. -/
theorem Range.find?_keep_eq_some_iff {α : Type} (rs : List (Range α)) (a : UInt64) (r : Range α) :
    (keep rs).find? (·.covers a) = some r ↔ r ∈ keep rs ∧ r.covers a = true := by
  rw [← RangeMap.find?_offerAll_empty, (RangeMap.disjoint_empty.offerAll rs).find?_eq_some_iff,
    RangeMap.mem_toList_offerAll_empty]

end Symbolication
