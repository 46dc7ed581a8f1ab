import Symbolication.OrderedMap.Basic

/-!
Ordered maps as functions of their keys. A map is determined by what it holds under each key, and
each operation is described by what it does to that; the neighbours of a key are the extreme entries
on either side of it.
-/

namespace Symbolication.OrderedMap

universe u v

/-- A condition that is passed down a list holds of an initial part of it. -/
theorem takeWhile_eq_filter {β : Type v} {xs : List β} {p : β → Bool}
    (h : xs.Pairwise fun x y => p y = true → p x = true) : xs.takeWhile p = xs.filter p := by
  induction xs with
  | nil => rfl
  | cons x rest ih =>
    obtain ⟨hhead, htail⟩ := List.pairwise_cons.mp h
    by_cases hx : p x = true
    · simp [hx, ih htail]
    · have : rest.filter p = [] := List.filter_eq_nil_iff.mpr fun y hy hp => hx (hhead y hy hp)
      simp [hx, this]

variable {κ : Type u} {α : Type v} [Ord κ]

@[simp] theorem get?_empty (k : κ) : (∅ : OrderedMap κ α).get? k = none := rfl

@[simp] theorem entries_empty : (∅ : OrderedMap κ α).entries = [] := rfl

theorem contains_eq (m : OrderedMap κ α) (k : κ) : m.contains k = (m.get? k).isSome := rfl

/-- What an ascending entry list holds under a key is the value of the entry with that key. -/
theorem get?_eq_some_iff [Std.LawfulEqOrd κ] {m : OrderedMap κ α} {k : κ} {a : α} :
    m.get? k = some a ↔ (k, a) ∈ m.entries := by
  obtain ⟨es, hes⟩ := m
  induction es with
  | nil => simp [get?]
  | cons e rest ih =>
    obtain ⟨k', a'⟩ := e
    obtain ⟨hhead, htail⟩ := List.pairwise_cons.mp hes
    by_cases hk : k' = k
    · subst hk
      have hnot : (k', a) ∉ rest := fun h => by
        have := hhead _ h
        simp [Std.ReflCmp.compare_self] at this
      simp [get?, Std.ReflCmp.compare_self, hnot, eq_comm]
    · have hne : (compare k' k == .eq) = false := by
        simpa [Std.LawfulEqCmp.compare_eq_iff_eq] using hk
      have ih := ih htail
      simp only [get?] at ih
      simp only [get?, List.find?_cons, hne, ih, List.mem_cons, Prod.mk.injEq]
      exact ⟨.inr, fun h => h.resolve_left fun h => hk h.1.symm⟩

theorem get?_eq_none_iff [Std.LawfulEqOrd κ] {m : OrderedMap κ α} {k : κ} :
    m.get? k = none ↔ ∀ a, (k, a) ∉ m.entries := by
  rw [Option.eq_none_iff_forall_ne_some]
  exact forall_congr' fun a => not_congr get?_eq_some_iff

variable [Std.TransOrd κ]

/-- Ascending entry lists with the same members are equal. -/
theorem eq_of_mem_iff {es fs : List (κ × α)} (hes : es.Pairwise fun p q => compare p.1 q.1 = .lt)
    (hfs : fs.Pairwise fun p q => compare p.1 q.1 = .lt) (h : ∀ p, p ∈ es ↔ p ∈ fs) : es = fs := by
  induction es generalizing fs with
  | nil => exact (List.eq_nil_iff_forall_not_mem.mpr fun p hp => by simpa using (h p).mpr hp).symm
  | cons e es ih =>
    cases fs with
    | nil => simpa using (h e).mp List.mem_cons_self
    | cons f fs =>
      obtain ⟨he, hes'⟩ := List.pairwise_cons.mp hes
      obtain ⟨hf, hfs'⟩ := List.pairwise_cons.mp hfs
      have hef : e = f := by
        rcases List.mem_cons.mp ((h e).mp List.mem_cons_self) with h₁ | h₁
        · exact h₁
        rcases List.mem_cons.mp ((h f).mpr List.mem_cons_self) with h₂ | h₂
        · exact h₂.symm
        exact absurd (he _ h₂) (Std.OrientedCmp.not_lt_of_lt (hf _ h₁))
      subst hef
      have irrefl {rest : List (κ × α)} (hr : ∀ q ∈ rest, compare e.1 q.1 = .lt) : e ∉ rest :=
        fun hm => by simpa [Std.ReflCmp.compare_self] using hr e hm
      refine congrArg (e :: ·) (ih hes' hfs' fun p => ⟨fun hp => ?_, fun hp => ?_⟩)
      · rcases List.mem_cons.mp ((h p).mp (List.mem_cons_of_mem _ hp)) with rfl | hm
        · exact absurd hp (irrefl he)
        · exact hm
      · rcases List.mem_cons.mp ((h p).mpr (List.mem_cons_of_mem _ hp)) with rfl | hm
        · exact absurd hp (irrefl hf)
        · exact hm

/-- The last element that a condition holds of, in an ascending list. -/
theorem getLast?_filter_eq_some_iff {es : List (κ × α)}
    (hes : es.Pairwise fun p q => compare p.1 q.1 = .lt) {p : κ × α → Bool} {e : κ × α} :
    (es.filter p).getLast? = some e ↔
      e ∈ es ∧ p e = true ∧ ∀ x ∈ es, p x = true → x = e ∨ compare x.1 e.1 = .lt := by
  have hsub := hes.filter p
  constructor
  · intro h
    obtain ⟨front, hfront⟩ := List.getLast?_eq_some_iff.mp h
    have he : e ∈ es.filter p := by simp [hfront]
    refine ⟨(List.mem_filter.mp he).1, (List.mem_filter.mp he).2, fun x hx hp => ?_⟩
    have hx' : x ∈ front ++ [e] := hfront ▸ List.mem_filter.mpr ⟨hx, hp⟩
    rcases List.mem_append.mp hx' with hx' | hx'
    · rw [hfront] at hsub
      exact .inr ((List.pairwise_append.mp hsub).2.2 x hx' e (List.mem_singleton.mpr rfl))
    · exact .inl (List.mem_singleton.mp hx')
  · rintro ⟨he, hp, hmax⟩
    have hmem : e ∈ es.filter p := List.mem_filter.mpr ⟨he, hp⟩
    cases hl : (es.filter p).getLast? with
    | none => simp [List.getLast?_eq_none_iff.mp hl] at hmem
    | some l =>
      obtain ⟨front, hfront⟩ := List.getLast?_eq_some_iff.mp hl
      have hlmem : l ∈ es.filter p := by simp [hfront]
      rcases hmax l (List.mem_filter.mp hlmem).1 (List.mem_filter.mp hlmem).2 with h | h
      · rw [h]
      · rw [hfront] at hmem hsub
        rcases List.mem_append.mp hmem with hm | hm
        · have := (List.pairwise_append.mp hsub).2.2 e hm l (List.mem_singleton.mpr rfl)
          exact absurd h (Std.OrientedCmp.not_lt_of_lt this)
        · rw [List.mem_singleton.mp hm]

/-- The keys at or below `k` form an initial part of the entries. -/
theorem atOrBelow?_eq (m : OrderedMap κ α) (k : κ) :
    m.atOrBelow? k = (m.entries.filter fun p => compare p.1 k != .gt).getLast? := by
  have hdown : m.entries.Pairwise fun x y =>
      (compare y.1 k != .gt) = true → (compare x.1 k != .gt) = true := by
    refine m.ascending.imp fun {x y} hxy hy => ?_
    simp only [bne_iff_ne, ne_eq, ← Ordering.isLE_iff_ne_gt] at hy ⊢
    exact Std.TransCmp.isLE_trans (by simp [hxy]) hy
  rw [atOrBelow?, takeWhile_eq_filter hdown]

/-- The keys below `k` form an initial part of the entries. -/
theorem below?_eq (m : OrderedMap κ α) (k : κ) :
    m.below? k = (m.entries.filter fun p => compare p.1 k == .lt).getLast? := by
  have hdown : m.entries.Pairwise fun x y =>
      (compare y.1 k == .lt) = true → (compare x.1 k == .lt) = true := by
    refine m.ascending.imp fun {x y} hxy hy => ?_
    simp only [beq_iff_eq] at hy ⊢
    exact Std.TransCmp.lt_trans hxy hy
  rw [below?, takeWhile_eq_filter hdown]

theorem atOrBelow?_eq_some_iff {m : OrderedMap κ α} {k : κ} {e : κ × α} :
    m.atOrBelow? k = some e ↔ e ∈ m.entries ∧ compare e.1 k ≠ .gt ∧
      ∀ x ∈ m.entries, compare x.1 k ≠ .gt → x = e ∨ compare x.1 e.1 = .lt := by
  rw [atOrBelow?_eq, getLast?_filter_eq_some_iff m.ascending]
  simp

theorem below?_eq_some_iff {m : OrderedMap κ α} {k : κ} {e : κ × α} :
    m.below? k = some e ↔ e ∈ m.entries ∧ compare e.1 k = .lt ∧
      ∀ x ∈ m.entries, compare x.1 k = .lt → x = e ∨ compare x.1 e.1 = .lt := by
  rw [below?_eq, getLast?_filter_eq_some_iff m.ascending]
  simp

theorem atOrBelow?_eq_none_iff {m : OrderedMap κ α} {k : κ} :
    m.atOrBelow? k = none ↔ ∀ x ∈ m.entries, compare x.1 k = .gt := by
  rw [atOrBelow?_eq, List.getLast?_eq_none_iff, List.filter_eq_nil_iff]
  simp

theorem below?_eq_none_iff {m : OrderedMap κ α} {k : κ} :
    m.below? k = none ↔ ∀ x ∈ m.entries, compare x.1 k ≠ .lt := by
  rw [below?_eq, List.getLast?_eq_none_iff, List.filter_eq_nil_iff]
  simp

omit [Std.TransOrd κ] in
theorem mem_between_iff {m : OrderedMap κ α} {lo hi : κ} {e : κ × α} :
    e ∈ m.between lo hi ↔ e ∈ m.entries ∧ compare e.1 lo ≠ .lt ∧ compare e.1 hi ≠ .gt := by
  simp [between]

variable [Std.LawfulEqOrd κ]

/-- Maps that hold the same under every key are equal. -/
theorem ext_get? {m n : OrderedMap κ α} (h : ∀ k, m.get? k = n.get? k) : m = n :=
  ext <| eq_of_mem_iff m.ascending n.ascending fun p => by
    rw [← get?_eq_some_iff, ← get?_eq_some_iff, h]

theorem mem_insertEntry_iff {k : κ} {a : α} {p : κ × α} {es : List (κ × α)}
    (h : es.Pairwise fun p q => compare p.1 q.1 = .lt) :
    p ∈ insertEntry k a es ↔ p = (k, a) ∨ p ∈ es ∧ p.1 ≠ k := by
  induction es with
  | nil => simp [insertEntry]
  | cons e rest ih =>
    obtain ⟨k', a'⟩ := e
    obtain ⟨hhead, htail⟩ := List.pairwise_cons.mp h
    have hrest {j : κ} (hj : compare j k' = .lt ∨ j = k') (q : κ × α) (hq : q ∈ rest) : q.1 ≠ j := by
      rintro rfl
      have := hhead q hq
      rcases hj with hj | hj
      · exact Std.OrientedCmp.not_lt_of_lt hj this
      · simp [hj, Std.ReflCmp.compare_self] at this
    rw [insertEntry]
    split
    · rename_i hlt
      have hne : k' ≠ k := by
        rintro rfl
        simp [Std.ReflCmp.compare_self] at hlt
      simp only [List.mem_cons]
      constructor
      · rintro (rfl | rfl | hp)
        · exact .inl rfl
        · exact .inr ⟨.inl rfl, hne⟩
        · exact .inr ⟨.inr hp, hrest (.inl hlt) p hp⟩
      · rintro (rfl | ⟨rfl | hp, -⟩)
        · exact .inl rfl
        · exact .inr (.inl rfl)
        · exact .inr (.inr hp)
    · rename_i heq
      have hk : k = k' := Std.LawfulEqCmp.compare_eq_iff_eq.mp heq
      subst hk
      simp only [List.mem_cons]
      constructor
      · rintro (rfl | hp)
        · exact .inl rfl
        · exact .inr ⟨.inr hp, hrest (.inr rfl) p hp⟩
      · rintro (rfl | ⟨rfl | hp, hne⟩)
        · exact .inl rfl
        · exact absurd rfl hne
        · exact .inr hp
    · rename_i hgt
      have hne : k' ≠ k := by
        rintro rfl
        simp [Std.ReflCmp.compare_self] at hgt
      rw [List.mem_cons, ih htail, List.mem_cons]
      constructor
      · rintro (rfl | rfl | ⟨hp, hpk⟩)
        · exact .inr ⟨.inl rfl, hne⟩
        · exact .inl rfl
        · exact .inr ⟨.inr hp, hpk⟩
      · rintro (rfl | ⟨rfl | hp, hpk⟩)
        · exact .inr (.inl rfl)
        · exact .inl rfl
        · exact .inr (.inr ⟨hp, hpk⟩)

theorem get?_insert [DecidableEq κ] (m : OrderedMap κ α) (k j : κ) (a : α) :
    (m.insert k a).get? j = if j = k then some a else m.get? j := by
  have hmem (b : α) : (j, b) ∈ (m.insert k a).entries ↔ (j, b) = (k, a) ∨ (j, b) ∈ m.entries ∧ j ≠ k :=
    mem_insertEntry_iff m.ascending
  apply Option.ext
  intro b
  rw [get?_eq_some_iff, hmem]
  split
  · rename_i h
    simp [h, eq_comm]
  · rename_i h
    simp [h, get?_eq_some_iff]

theorem get?_foldl_insert [DecidableEq κ] (es : List (κ × α)) (h : (es.map Prod.fst).Nodup) (m : OrderedMap κ α)
    (k : κ) (a : α) :
    (es.foldl (fun m p => m.insert p.1 p.2) m).get? k = some a ↔
      (k, a) ∈ es ∨ k ∉ es.map Prod.fst ∧ m.get? k = some a := by
  induction es generalizing m with
  | nil => simp
  | cons e es ih =>
    obtain ⟨j, b⟩ := e
    obtain ⟨hj, hes⟩ := List.nodup_cons.mp h
    rw [List.foldl_cons, ih hes, get?_insert]
    by_cases hkj : k = j
    · subst hkj
      have hnot : (k, a) ∉ es := fun hmem => hj (List.mem_map.mpr ⟨_, hmem, rfl⟩)
      have hkeys : k ∉ es.map Prod.fst := hj
      simp [hnot, hkeys, eq_comm]
    · simp [hkj]

/-- A map made from entries without a repeated key holds exactly these entries. -/
theorem get?_ofList_eq_some_iff [DecidableEq κ] (es : List (κ × α)) (h : (es.map Prod.fst).Nodup) (k : κ) (a : α) :
    (ofList es).get? k = some a ↔ (k, a) ∈ es := by
  rw [ofList, get?_foldl_insert es h]
  simp [empty, get?]

theorem get?_insertNew [DecidableEq κ] (m : OrderedMap κ α) (k j : κ) (a : α) :
    (m.insertNew k a).get? j = (m.get? j).or (if k = j then some a else none) := by
  unfold insertNew
  rw [contains_eq]
  by_cases hkj : k = j
  · subst hkj
    cases hm : m.get? k <;> simp [hm, get?_insert]
  · have hjk : j ≠ k := fun h => hkj h.symm
    rw [if_neg hkj, Option.or_none]
    split
    · rfl
    · rw [get?_insert, if_neg hjk]

omit [Std.TransOrd κ] in
theorem get?_erase [DecidableEq κ] (m : OrderedMap κ α) (k j : κ) :
    (m.erase k).get? j = if j = k then none else m.get? j := by
  apply Option.ext
  intro b
  rw [get?_eq_some_iff]
  split
  · rename_i h
    simp [erase, h, Std.ReflCmp.compare_self]
  · rename_i h
    simp [erase, get?_eq_some_iff, Std.LawfulEqCmp.compare_eq_iff_eq, h]

omit [Std.TransOrd κ] in
theorem mem_keys_iff {m : OrderedMap κ α} {k : κ} : k ∈ m.keys ↔ m.contains k = true := by
  rw [contains_eq, Option.isSome_iff_exists]
  constructor
  · intro h
    obtain ⟨e, he, rfl⟩ := List.mem_map.mp h
    exact ⟨e.2, get?_eq_some_iff.mpr he⟩
  · intro h
    obtain ⟨a, ha⟩ := h
    exact List.mem_map.mpr ⟨(k, a), get?_eq_some_iff.mp ha, rfl⟩

omit [Std.TransOrd κ] in
theorem nodup_keys (m : OrderedMap κ α) : m.keys.Nodup := by
  refine List.pairwise_map.mpr (m.ascending.imp ?_)
  intro p q hlt heq
  have hself : compare q.1 q.1 = .eq := Std.ReflCmp.compare_self
  rw [heq, hself] at hlt
  cases hlt

theorem contains_insert [DecidableEq κ] (m : OrderedMap κ α) (k j : κ) (a : α) :
    (m.insert k a).contains j = (decide (j = k) || m.contains j) := by
  rw [contains_eq, get?_insert, contains_eq]
  by_cases h : j = k <;> simp [h]

omit [Std.TransOrd κ] in
theorem contains_erase [DecidableEq κ] (m : OrderedMap κ α) (k j : κ) :
    (m.erase k).contains j = (!decide (j = k) && m.contains j) := by
  rw [contains_eq, get?_erase, contains_eq]
  by_cases h : j = k <;> simp [h]

/-- A map that holds a function of what another one holds under the same key, entry by entry. -/
theorem entries_eq_map {β : Type v} (m : OrderedMap κ α) (n : OrderedMap κ β) (f : κ → α → β)
    (h : ∀ k, n.get? k = (m.get? k).map (f k)) :
    n.entries = m.entries.map fun e => (e.1, f e.1 e.2) := by
  have hascending : (m.entries.map fun e => (e.1, f e.1 e.2)).Pairwise fun p q =>
      compare p.1 q.1 = .lt := List.pairwise_map.mpr m.ascending
  apply eq_of_mem_iff n.ascending hascending
  intro p
  rw [← get?_eq_some_iff, h, Option.map_eq_some_iff, List.mem_map]
  constructor
  · intro hfound
    obtain ⟨a, ha, hp⟩ := hfound
    refine ⟨(p.1, a), get?_eq_some_iff.mp ha, ?_⟩
    rw [hp]
  · intro hmem
    obtain ⟨e, he, rfl⟩ := hmem
    exact ⟨e.2, get?_eq_some_iff.mpr he, rfl⟩

end Symbolication.OrderedMap
