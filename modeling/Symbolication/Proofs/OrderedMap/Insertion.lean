import Mathlib.Data.List.Nodup
import Symbolication.OrderedMap.Lemmas

/-!
Insertions and removals that undo or hide each other, insertions that may change places or be made
twice, and what an insertion changes in a span of keys.
-/

namespace Symbolication.OrderedMap

section Any

variable {κ α : Type} [Ord κ]

theorem ascending_between (m : OrderedMap κ α) (lo hi : κ) :
    (m.between lo hi).Pairwise fun p q => compare p.1 q.1 = .lt :=
  m.ascending.filter _

variable [Std.LawfulEqOrd κ]

theorem mem_entries_insert_iff [Std.TransOrd κ] (m : OrderedMap κ α) (k : κ) (a : α)
    (e : κ × α) :
    e ∈ (m.insert k a).entries ↔ e = (k, a) ∨ e ∈ m.entries ∧ e.1 ≠ k :=
  mem_insertEntry_iff m.ascending

variable [DecidableEq κ]

theorem mem_entries_erase_iff (m : OrderedMap κ α) (k : κ) (e : κ × α) :
    e ∈ (m.erase k).entries ↔ e ∈ m.entries ∧ e.1 ≠ k := by
  rw [← get?_eq_some_iff, get?_erase, ← get?_eq_some_iff]
  by_cases he : e.1 = k
  · simp [he]
  · simp [he]

variable [Std.TransOrd κ]

theorem insert_insert (m : OrderedMap κ α) (k : κ) (a b : α) :
    (m.insert k a).insert k b = m.insert k b := by
  apply ext_get?
  intro j
  simp only [get?_insert]
  split <;> rfl

/-- What is stored under a key does not depend on what was there before. -/
theorem insert_erase (m : OrderedMap κ α) (k : κ) (a : α) :
    (m.erase k).insert k a = m.insert k a := by
  apply ext_get?
  intro j
  rw [get?_insert, get?_insert, get?_erase]
  by_cases hj : j = k
  · rw [if_pos hj, if_pos hj]
  · rw [if_neg hj, if_neg hj, if_neg hj]

theorem insert_of_get? (m : OrderedMap κ α) (k : κ) (a : α) (h : m.get? k = some a) :
    m.insert k a = m := by
  apply ext_get?
  intro j
  rw [get?_insert]
  by_cases hj : j = k
  · rw [if_pos hj, hj, h]
  · rw [if_neg hj]

theorem erase_of_get?_eq_none (m : OrderedMap κ α) (k : κ) (h : m.get? k = none) :
    m.erase k = m := by
  apply ext_get?
  intro j
  rw [get?_erase]
  by_cases hj : j = k
  · rw [if_pos hj, hj, h]
  · rw [if_neg hj]

/-- Taking out what was put under a free key leaves the map as it was. -/
theorem erase_insert_of_get?_eq_none (m : OrderedMap κ α) (k : κ) (a : α) (h : m.get? k = none) :
    (m.insert k a).erase k = m := by
  apply ext_get?
  intro j
  rw [get?_erase, get?_insert]
  by_cases hj : j = k
  · rw [if_pos hj, hj, h]
  · rw [if_neg hj, if_neg hj]

theorem insert_comm (m : OrderedMap κ α) (j k : κ) (a b : α) (h : j ≠ k) :
    (m.insert j a).insert k b = (m.insert k b).insert j a := by
  apply ext_get?
  intro i
  simp only [get?_insert]
  by_cases hk : i = k
  · rw [if_pos hk, if_pos hk, if_neg (fun hj => h (hj.symm.trans hk))]
  · rw [if_neg hk, if_neg hk]

theorem insertNew_comm (m : OrderedMap κ α) (j k : κ) (a b : α) (h : j ≠ k) :
    (m.insertNew j a).insertNew k b = (m.insertNew k b).insertNew j a := by
  apply ext_get?
  intro i
  simp only [get?_insertNew, Option.or_assoc]
  by_cases hk : k = i
  · rw [if_neg (fun hj => h (hj.trans hk.symm)), Option.none_or, Option.or_none]
  · rw [if_neg hk, Option.none_or, Option.or_none]

/-- Steps of a fold that commute on different keys may come in any order if no key comes twice. -/
theorem foldl_perm_of_nodup_keys {β γ δ : Type*} (step : β → γ × δ → β)
    (hcomm : ∀ b e f, e.1 ≠ f.1 → step (step b e) f = step (step b f) e) (es fs : List (γ × δ))
    (hperm : es.Perm fs) (hkeys : (es.map Prod.fst).Nodup) (b : β) :
    es.foldl step b = fs.foldl step b := by
  apply hperm.foldl_eq'
  intro e he f hf c
  by_cases hkey : e.1 = f.1
  · -- A key comes once, so the two steps are the same one.
    have heq : e = f := List.inj_on_of_nodup_map hkeys he hf hkey
    rw [heq]
  · exact hcomm c e f hkey

theorem foldl_insert_perm (m : OrderedMap κ α) (es fs : List (κ × α)) (hperm : es.Perm fs)
    (hkeys : (es.map Prod.fst).Nodup) :
    es.foldl (fun m e => m.insert e.1 e.2) m = fs.foldl (fun m e => m.insert e.1 e.2) m := by
  apply foldl_perm_of_nodup_keys _ _ es fs hperm hkeys
  intro m e f hne
  exact m.insert_comm e.1 f.1 e.2 f.2 hne

theorem foldl_insertNew_perm (m : OrderedMap κ α) (es fs : List (κ × α)) (hperm : es.Perm fs)
    (hkeys : (es.map Prod.fst).Nodup) :
    es.foldl (fun m e => m.insertNew e.1 e.2) m = fs.foldl (fun m e => m.insertNew e.1 e.2) m := by
  apply foldl_perm_of_nodup_keys _ _ es fs hperm hkeys
  intro m e f hne
  exact m.insertNew_comm e.1 f.1 e.2 f.2 hne

/-- Steps that are settled once they are made, and stay settled whatever comes later, change nothing when
all of them are made again. -/
theorem foldl_foldl_of_settles {β γ : Type*} (step : β → γ → β)
    (hself : ∀ b c, step (step b c) c = step b c)
    (hkeep : ∀ b c d, step b c = b → step (step b d) c = step b d) (b : β) (cs : List γ) :
    cs.foldl step (cs.foldl step b) = cs.foldl step b := by
  have hstays (b : β) (c : γ) (hc : step b c = b) (ds : List γ) :
      step (ds.foldl step b) c = ds.foldl step b := by
    induction ds generalizing b with
    | nil => exact hc
    | cons d ds ih => exact ih _ (hkeep b c d hc)
  have hsettled : ∀ c ∈ cs, step (cs.foldl step b) c = cs.foldl step b := by
    induction cs generalizing b with
    | nil => exact fun c hc => absurd hc List.not_mem_nil
    | cons d ds ih =>
      intro c hc
      rcases List.mem_cons.mp hc with hd | hds
      · rw [hd]
        exact hstays _ d (hself b d) ds
      · exact ih _ c hds
  -- A second pass meets settled steps only.
  have hidle (ds : List γ) (hds : ∀ c ∈ ds, step (cs.foldl step b) c = cs.foldl step b) :
      ds.foldl step (cs.foldl step b) = cs.foldl step b := by
    induction ds with
    | nil => rfl
    | cons d ds ih =>
      obtain ⟨hd, hrest⟩ := List.forall_mem_cons.mp hds
      rw [List.foldl_cons, hd]
      exact ih hrest
  exact hidle cs hsettled

theorem insertNew_eq_self_iff (m : OrderedMap κ α) (k : κ) (a : α) :
    m.insertNew k a = m ↔ m.contains k = true := by
  constructor
  · intro h
    have hk := m.get?_insertNew k k a
    rw [h, if_pos rfl] at hk
    rw [contains_eq, hk]
    cases m.get? k <;> rfl
  · intro h
    exact if_pos h

/-- Entries that are put under free keys only are put there once. -/
theorem foldl_insertNew_twice (m : OrderedMap κ α) (es : List (κ × α)) :
    es.foldl (fun m e => m.insertNew e.1 e.2) (es.foldl (fun m e => m.insertNew e.1 e.2) m) =
      es.foldl (fun m e => m.insertNew e.1 e.2) m := by
  have hcontains (m : OrderedMap κ α) (e : κ × α) (k : κ) (h : m.contains k = true ∨ k = e.1) :
      (m.insertNew e.1 e.2).contains k = true := by
    rw [contains_eq, get?_insertNew]
    rcases h with hk | hk
    · obtain ⟨a, ha⟩ := Option.isSome_iff_exists.mp hk
      rw [ha]
      rfl
    · rw [if_pos hk.symm]
      cases m.get? k <;> rfl
  apply foldl_foldl_of_settles
  · intro m e
    exact (insertNew_eq_self_iff _ _ _).mpr (hcontains m e e.1 (Or.inr rfl))
  · intro m e f he
    have hk := (insertNew_eq_self_iff m e.1 e.2).mp he
    exact (insertNew_eq_self_iff _ _ _).mpr (hcontains m f e.1 (Or.inl hk))

end Any

section Span

theorem compare_ne_gt_iff (a b : UInt64) : compare a b ≠ .gt ↔ a.toNat ≤ b.toNat := by
  rw [ne_eq, ← Ordering.isLE_iff_ne_gt, Std.isLE_compare, UInt64.le_iff_toNat_le]

theorem compare_eq_lt_iff (a b : UInt64) : compare a b = .lt ↔ a.toNat < b.toNat := by
  rw [Std.compare_eq_lt, UInt64.lt_iff_toNat_lt]

variable {α : Type}

theorem mem_between_toNat_iff (m : OrderedMap UInt64 α) (lo hi : UInt64) (e : UInt64 × α) :
    e ∈ m.between lo hi ↔ e ∈ m.entries ∧ lo.toNat ≤ e.1.toNat ∧ e.1.toNat ≤ hi.toNat := by
  rw [mem_between_iff, compare_ne_gt_iff, ne_eq, compare_eq_lt_iff, Nat.not_lt]

/-- The entries of a span in which a key lies: those below the key, its own, and those above it. -/
theorem between_insert_of_mem (m : OrderedMap UInt64 α) (lo hi k : UInt64) (a : α)
    (hlo : lo.toNat ≤ k.toNat) (hhi : k.toNat ≤ hi.toNat) :
    (m.insert k a).between lo hi =
      (m.erase k).between lo k ++ (k, a) :: (m.erase k).between k hi := by
  have hne (j : UInt64) (hj : j ≠ k) : j.toNat ≠ k.toNat := fun h => hj (UInt64.toNat_inj.mp h)
  have hbelow (e : UInt64 × α) (he : e ∈ (m.erase k).between lo k) : e.1.toNat < k.toNat := by
    obtain ⟨hmem, -, hle⟩ := (mem_between_toNat_iff _ _ _ e).mp he
    exact Nat.lt_of_le_of_ne hle (hne _ ((mem_entries_erase_iff m k e).mp hmem).2)
  have habove (e : UInt64 × α) (he : e ∈ (m.erase k).between k hi) : k.toNat < e.1.toNat := by
    obtain ⟨hmem, hge, -⟩ := (mem_between_toNat_iff _ _ _ e).mp he
    exact Nat.lt_of_le_of_ne hge (Ne.symm (hne _ ((mem_entries_erase_iff m k e).mp hmem).2))
  -- Both sides ascend, so it is enough that they have the same members.
  apply eq_of_mem_iff (ascending_between _ lo hi)
  · refine List.pairwise_append.mpr ⟨ascending_between _ lo k, ?_, ?_⟩
    · refine List.pairwise_cons.mpr ⟨?_, ascending_between _ k hi⟩
      intro e he
      exact (compare_eq_lt_iff _ _).mpr (habove e he)
    · intro e he f hf
      rw [compare_eq_lt_iff]
      rcases List.mem_cons.mp hf with rfl | hf
      · exact hbelow e he
      · exact Nat.lt_trans (hbelow e he) (habove f hf)
  · intro e
    rw [List.mem_append, List.mem_cons, mem_between_toNat_iff, mem_between_toNat_iff,
      mem_between_toNat_iff, mem_entries_insert_iff, mem_entries_erase_iff]
    constructor
    · rintro ⟨rfl | ⟨hmem, hek⟩, hle, hge⟩
      · exact Or.inr (Or.inl rfl)
      · rcases Nat.lt_or_ge e.1.toNat k.toNat with hlt | hgt
        · exact Or.inl ⟨⟨hmem, hek⟩, hle, Nat.le_of_lt hlt⟩
        · exact Or.inr (Or.inr ⟨⟨hmem, hek⟩, hgt, hge⟩)
    · rintro (⟨⟨hmem, hek⟩, hle, hge⟩ | rfl | ⟨⟨hmem, hek⟩, hle, hge⟩)
      · exact ⟨Or.inr ⟨hmem, hek⟩, hle, Nat.le_trans hge hhi⟩
      · exact ⟨Or.inl rfl, hlo, hhi⟩
      · exact ⟨Or.inr ⟨hmem, hek⟩, Nat.le_trans hlo hle, hge⟩

/-- A key outside of a span does not show in it. -/
theorem between_insert_of_not_mem (m : OrderedMap UInt64 α) (lo hi k : UInt64) (a : α)
    (h : ¬ (lo.toNat ≤ k.toNat ∧ k.toNat ≤ hi.toNat)) :
    (m.insert k a).between lo hi = m.between lo hi := by
  apply eq_of_mem_iff (ascending_between _ lo hi) (ascending_between _ lo hi)
  intro e
  rw [mem_between_toNat_iff, mem_between_toNat_iff, mem_entries_insert_iff]
  constructor
  · rintro ⟨rfl | ⟨hmem, -⟩, hspan⟩
    · exact absurd hspan h
    · exact ⟨hmem, hspan⟩
  · rintro ⟨hmem, hspan⟩
    -- What lies in the span is not replaced.
    have hek : e.1 ≠ k := by
      rintro rfl
      exact h hspan
    exact ⟨Or.inr ⟨hmem, hek⟩, hspan⟩

theorem between_erase_self (m : OrderedMap UInt64 α) (k : UInt64) :
    (m.erase k).between k k = [] := by
  rw [List.eq_nil_iff_forall_not_mem]
  intro e he
  obtain ⟨hmem, hle, hge⟩ := (mem_between_toNat_iff _ _ _ e).mp he
  exact ((mem_entries_erase_iff m k e).mp hmem).2 (UInt64.toNat_inj.mp (Nat.le_antisymm hge hle))

end Span

end Symbolication.OrderedMap
