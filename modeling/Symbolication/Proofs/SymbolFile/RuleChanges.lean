import Symbolication.Proofs.Cfi.RuleSetGrammar
import Symbolication.Proofs.OrderedMap.Insertion
import Symbolication.Proofs.SymbolFile.Accepted
import Symbolication.Proofs.SymbolFile.FrameRules
import Symbolication.Proofs.Text.DecodedLines

/-!
Several changes of the rules at one address. The last one in the file takes the place of the others,
so a change that is split into two loses its first half; this shows unless the rules of that half are
in effect anyway.
-/

namespace Symbolication

namespace Cfi

/-- Two accepted rule sets on one line deliver the rules of both. -/
theorem deliver_append (r₁ r₂ : String) (h₁ : (deliver r₁).error = none)
    (h₂ : (deliver r₂).error = none) :
    deliver (r₁ ++ " " ++ r₂) = ⟨(deliver r₁).rules ++ (deliver r₂).rules, none⟩ := by
  have haccepted (r : String) (h : (deliver r).error = none) :
      deliverTokens (Text.tokens r.toList) = ⟨(deliver r).rules, none⟩ := by
    rw [← h]
    rfl
  obtain ⟨groups, hne, hgroups, htokens, hrules⟩ :=
    (deliverTokens_eq_accepted_iff _ _).mp (haccepted r₁ h₁)
  obtain ⟨others, -, hothers, hotherTokens, hotherRules⟩ :=
    (deliverTokens_eq_accepted_iff _ _).mp (haccepted r₂ h₂)
  -- No group reaches over the blank, so the groups of the line are those of the two texts.
  have htext : (r₁ ++ " " ++ r₂).toList = r₁.toList ++ ' ' :: r₂.toList := by simp
  rw [deliver, htext, Text.tokens_append ' ' rfl, deliverTokens_eq_accepted_iff]
  refine ⟨groups ++ others, ?_, List.forall_mem_append.mpr ⟨hgroups, hothers⟩, ?_, ?_⟩
  · exact List.append_ne_nil_of_left_ne_nil hne others
  · rw [htokens, hotherTokens, List.flatMap_append]
  · rw [hrules, hotherRules, List.map_append]

namespace RecoveryRules

theorem ext_expression? {r s : RecoveryRules} (h : ∀ t, r.expression? t = s.expression? t) :
    r = s := by
  have hregisters : r.registers = s.registers :=
    OrderedMap.ext_get? fun name => h (.register name)
  have hcfa : r.cfa = s.cfa := h .cfa
  have hra : r.ra = s.ra := h .ra
  cases r
  cases s
  simp_all

/-- Rules may be left out before others if the others have a say on all their targets but those that
have the same expression already. -/
theorem applyAll_absorbed_iff (prior : RecoveryRules) (earlier later : List Rule) :
    (prior.applyAll earlier).applyAll later = prior.applyAll later ↔
      ∀ target expression, lastExpression? earlier target = some expression →
        lastExpression? later target = none → prior.expression? target = some expression := by
  constructor
  · intro h target expression hearlier hlater
    have htarget := congrArg (·.expression? target) h
    simp only [expression?_applyAll, hearlier, hlater, Option.none_or, Option.some_or] at htarget
    exact htarget.symm
  · intro h
    apply ext_expression?
    intro target
    simp only [expression?_applyAll]
    cases hlater : lastExpression? later target with
    | some expression => rfl
    | none =>
      cases hearlier : lastExpression? earlier target with
      | none => rfl
      | some expression => rw [h target expression hearlier hlater, Option.some_or]

theorem applyRuleSet_append (prior : RecoveryRules) (r₁ r₂ : String)
    (h₁ : (deliver r₁).error = none) (h₂ : (deliver r₂).error = none) :
    prior.applyRuleSet (r₁ ++ " " ++ r₂) =
      (prior.applyAll (deliver r₁).rules).applyAll (deliver r₂).rules := by
  rw [applyRuleSet, deliver_append r₁ r₂ h₁ h₂]
  exact List.foldl_append

end RecoveryRules

end Cfi

namespace OrderedMap

variable {κ α : Type} [Ord κ] [Std.TransOrd κ] [Std.LawfulEqOrd κ] [DecidableEq κ]

/-- What a run of insertions leaves under a key is the last value inserted there. -/
theorem get?_foldl_insert_last (m : OrderedMap κ α) (es : List (κ × α)) (k : κ) :
    (es.foldl (fun m e => m.insert e.1 e.2) m).get? k =
      (es.filterMap fun e => if e.1 = k then some e.2 else none).getLast?.or (m.get? k) := by
  rw [← SymbolFile.foldl_or_last]
  -- Seen from one key, each insertion takes the place of what is there or does nothing.
  refine (List.foldl_hom (fun m : OrderedMap κ α => m.get? k) ?_).symm
  intro m e
  rw [get?_insert]
  by_cases he : e.1 = k
  · rw [if_pos he, if_pos he.symm, Option.some_or]
  · rw [if_neg he, if_neg (Ne.symm he), Option.none_or]

/-- A later insertion at the same key hides what was there. -/
theorem foldl_insert_hidden (m : OrderedMap κ α) (es : List (κ × α)) (k : κ) (a b : α)
    (h : ∃ e ∈ es, e.1 = k) :
    es.foldl (fun m e => m.insert e.1 e.2) (m.insert k b) =
      es.foldl (fun m e => m.insert e.1 e.2) (m.insert k a) := by
  apply ext_get?
  intro j
  rw [get?_foldl_insert_last, get?_foldl_insert_last, get?_insert, get?_insert]
  by_cases hj : j = k
  · -- The last insertion here is one of the run, on either side.
    obtain ⟨e, he, hek⟩ := h
    have hmem : e.2 ∈ es.filterMap fun e => if e.1 = j then some e.2 else none :=
      List.mem_filterMap.mpr ⟨e, he, if_pos (hek.trans hj.symm)⟩
    rw [List.getLast?_eq_some_getLast (List.ne_nil_of_mem hmem), Option.some_or, Option.some_or]
  · rw [if_neg hj, if_neg hj]

/-- Without one, what was inserted before the run could as well be inserted after it. -/
theorem foldl_insert_kept (m : OrderedMap κ α) (es : List (κ × α)) (k : κ) (a b : α)
    (h : ¬ ∃ e ∈ es, e.1 = k) :
    (es.foldl (fun m e => m.insert e.1 e.2) (m.insert k a)).get? k = some a ∧
      es.foldl (fun m e => m.insert e.1 e.2) (m.insert k b) =
        (es.foldl (fun m e => m.insert e.1 e.2) (m.insert k a)).insert k b := by
  have hlast : (es.filterMap fun e => if e.1 = k then some e.2 else none) = [] := by
    rw [List.filterMap_eq_nil_iff]
    intro e he
    exact if_neg fun hek => h ⟨e, he, hek⟩
  constructor
  · rw [get?_foldl_insert_last, hlast, get?_insert, if_pos rfl]
    rfl
  · apply ext_get?
    intro j
    rw [get?_insert, get?_foldl_insert_last, get?_foldl_insert_last, get?_insert, get?_insert]
    by_cases hj : j = k
    · rw [hj, hlast, if_pos rfl, if_pos rfl]
      rfl
    · rw [if_neg hj, if_neg hj, if_neg hj]

/-- Making the same insertions again changes nothing. -/
theorem foldl_insert_twice (m : OrderedMap κ α) (es : List (κ × α)) :
    es.foldl (fun m e => m.insert e.1 e.2) (es.foldl (fun m e => m.insert e.1 e.2) m) =
      es.foldl (fun m e => m.insert e.1 e.2) m := by
  apply ext_get?
  intro k
  rw [get?_foldl_insert_last, get?_foldl_insert_last, ← Option.or_assoc, Option.or_self]

end OrderedMap

namespace SymbolFile

open Text (lines)

namespace Tables

/-- The tables with the change of the rules at an address taken out. -/
def withoutChange (t : Tables) (address : UInt64) : Tables :=
  { t with cfiDeltas := t.cfiDeltas.erase address }

/-- The tables with a change of the rules at an address. -/
def withChange (t : Tables) (address : UInt64) (rules : String) : Tables :=
  { t with cfiDeltas := t.cfiDeltas.insert address rules }

variable (t : Tables)

theorem rulesAt?_congr {t u : Tables} (hinitial : u.cfiInitial = t.cfiInitial)
    (hdeltas : u.cfiDeltas = t.cfiDeltas) (offset : UInt64) : u.rulesAt? offset = t.rulesAt? offset := by
  unfold rulesAt? ruleSetsAt?
  rw [hinitial, hdeltas]

theorem rulesAt?_of_initial (offset : UInt64) (initial : Range String)
    (hfind : t.cfiInitial.find? offset = some initial)
    (haccept : (Cfi.deliver initial.value).error = none) :
    t.rulesAt? offset = some (((t.cfiDeltas.between initial.base offset).map Prod.snd).foldl
      .applyRuleSet ((∅ : Cfi.RecoveryRules).applyRuleSet initial.value)) := by
  unfold rulesAt? ruleSetsAt?
  rw [hfind, Option.map_some]
  dsimp only
  rw [haccept]
  rfl

theorem exists_initial_of_rulesAt? (offset : UInt64) (rules : Cfi.RecoveryRules)
    (h : t.rulesAt? offset = some rules) :
    ∃ initial, t.cfiInitial.find? offset = some initial ∧
      (Cfi.deliver initial.value).error = none := by
  unfold rulesAt? ruleSetsAt? at h
  cases hfind : t.cfiInitial.find? offset with
  | none =>
    rw [hfind] at h
    cases h
  | some initial =>
    rw [hfind, Option.map_some] at h
    dsimp only at h
    split at h
    · cases h
    · rename_i haccept
      exact ⟨initial, rfl, Option.not_isSome_iff_eq_none.mp haccept⟩

/-- A change that is in effect at an offset works on the rules just before its address; then come the
changes above it. -/
theorem rulesAt?_withChange (hdisjoint : t.cfiInitial.Disjoint) (address offset : UInt64)
    (initial : Range String) (hfind : t.cfiInitial.find? offset = some initial)
    (haccept : (Cfi.deliver initial.value).error = none)
    (hlo : initial.base.toNat ≤ address.toNat) (hhi : address.toNat ≤ offset.toNat) :
    ∃ prior, (t.withoutChange address).rulesAt? address = some prior ∧
      ∀ rules, (t.withChange address rules).rulesAt? offset =
        some ((((t.cfiDeltas.erase address).between address offset).map Prod.snd).foldl
          .applyRuleSet (prior.applyRuleSet rules)) := by
  obtain ⟨hmem, hcovers⟩ := (hdisjoint.find?_eq_some_iff offset initial).mp hfind
  -- The rule set that is found for the offset is also the one for the address.
  have hcoversAddress : initial.covers address = true := by
    rw [Range.covers_iff] at hcovers ⊢
    omega
  have hfindAddress : t.cfiInitial.find? address = some initial :=
    (hdisjoint.find?_eq_some_iff address initial).mpr ⟨hmem, hcoversAddress⟩
  refine ⟨_, (t.withoutChange address).rulesAt?_of_initial address initial hfindAddress haccept, ?_⟩
  intro rules
  rw [(t.withChange address rules).rulesAt?_of_initial offset initial hfind haccept]
  have hbetween := t.cfiDeltas.between_insert_of_mem initial.base offset address rules hlo hhi
  rw [withChange, hbetween, List.map_append, List.foldl_append]
  rfl

/-- Whether it is one change or another that stands at an address shows somewhere exactly if it shows
on the rules just before that address. -/
theorem rulesAt?_withChange_eq_iff (hdisjoint : t.cfiInitial.Disjoint) (address : UInt64)
    (r s : String) :
    (∀ offset, (t.withChange address r).rulesAt? offset = (t.withChange address s).rulesAt? offset) ↔
      ∀ prior, (t.withoutChange address).rulesAt? address = some prior →
        prior.applyRuleSet r = prior.applyRuleSet s := by
  constructor
  · intro h prior hprior
    obtain ⟨initial, hfind, haccept⟩ := exists_initial_of_rulesAt? _ address prior hprior
    have hlo : initial.base.toNat ≤ address.toNat :=
      ((Range.covers_iff initial address).mp
        ((hdisjoint.find?_eq_some_iff address initial).mp hfind).2).1
    -- At the address itself no change comes after this one.
    obtain ⟨before, hbefore, hrules⟩ :=
      t.rulesAt?_withChange hdisjoint address address initial hfind haccept hlo (Nat.le_refl _)
    have hsame := h address
    rw [hrules, hrules, OrderedMap.between_erase_self] at hsame
    rw [Option.some.inj (hprior.symm.trans hbefore)]
    exact Option.some.inj hsame
  · intro h offset
    cases hfind : t.cfiInitial.find? offset with
    | none =>
      -- Without an initial rule set no change is read, and as little with one that is refused.
      unfold rulesAt? ruleSetsAt? withChange
      rw [hfind]
      rfl
    | some initial =>
      cases haccept : (Cfi.deliver initial.value).error with
      | some e =>
        unfold rulesAt? ruleSetsAt? withChange
        rw [hfind, Option.map_some, Option.map_some]
        dsimp only
        rw [haccept]
        rfl
      | none =>
        by_cases hspan : initial.base.toNat ≤ address.toNat ∧ address.toNat ≤ offset.toNat
        · obtain ⟨prior, hprior, hrules⟩ := t.rulesAt?_withChange hdisjoint address offset initial
            hfind haccept hspan.1 hspan.2
          rw [hrules, hrules, h prior hprior]
        · rw [(t.withChange address r).rulesAt?_of_initial offset initial hfind haccept,
            (t.withChange address s).rulesAt?_of_initial offset initial hfind haccept, withChange,
            withChange, OrderedMap.between_insert_of_not_mem _ _ _ _ _ hspan,
            OrderedMap.between_insert_of_not_mem _ _ _ _ _ hspan]

end Tables

section Accepted

variable (text : List Char) (h : ((∅ : Tables).loadText text).error = none)

include h

theorem cfiInitial_of_accepted :
    ((∅ : Tables).loadText text).tables.cfiInitial =
      (∅ : RangeMap String).offerAll ((recordsOf text).filterMap Record.initialRules?) :=
  table_of_accepted text h Tables.cfiInitial Record.initialRules? RangeMap.offer (fun _ _ => rfl)
    Tables.put_cfiInitial

end Accepted

/-- The text has the lines of some changes of the rules between other lines. -/
def ChangesBetween (text : List Char) (front back : List (List Char))
    (changes : List (UInt64 × String)) : Prop :=
  ∃ ls, lines text = front ++ (ls ++ back) ∧
    ls.map recordOfLine? = changes.map fun c => some (.cfiDelta c.1 c.2)

namespace ChangesBetween

variable {text other : List Char} {front back : List (List Char)}
variable {changes others : List (UInt64 × String)}

theorem recordsOf_eq (h : ChangesBetween text front back changes) :
    recordsOf text = front.filterMap recordOfLine? ++
      ((changes.map fun c => .cfiDelta c.1 c.2) ++ back.filterMap recordOfLine?) := by
  obtain ⟨ls, hlines, hls⟩ := h
  have hrecords : ls.filterMap recordOfLine? = changes.map fun c => Record.cfiDelta c.1 c.2 := by
    have hread := congrArg (List.filterMap id) hls
    rw [List.filterMap_map, List.filterMap_map] at hread
    exact hread.trans (congrFun List.filterMap_eq_map changes)
  rw [recordsOf, hlines, List.filterMap_append, List.filterMap_append, hrecords]

theorem ruleChanges_eq (h : ChangesBetween text front back changes) :
    ruleChanges (recordsOf text) = ruleChanges (front.filterMap recordOfLine?) ++
      (changes ++ ruleChanges (back.filterMap recordOfLine?)) := by
  have hchanges : ruleChanges (changes.map fun c => .cfiDelta c.1 c.2) = changes := by
    rw [ruleChanges, List.filterMap_map]
    exact List.filterMap_some
  rw [h.recordsOf_eq, ruleChanges, List.filterMap_append, List.filterMap_append, ← ruleChanges,
    ← ruleChanges, ← ruleChanges, hchanges]

theorem initialRules_eq (h : ChangesBetween text front back changes) :
    (recordsOf text).filterMap Record.initialRules? =
      (front.filterMap recordOfLine?).filterMap Record.initialRules? ++
        (back.filterMap recordOfLine?).filterMap Record.initialRules? := by
  have hnone : (changes.map fun c => Record.cfiDelta c.1 c.2).filterMap Record.initialRules? = [] := by
    rw [List.filterMap_map, List.filterMap_eq_nil_iff]
    exact fun _ _ => rfl
  rw [h.recordsOf_eq, List.filterMap_append, List.filterMap_append, hnone, List.nil_append]

/-- Some changes in the place of others make no difference to what is accepted. -/
theorem accepted_of_accepted (h : ChangesBetween text front back changes)
    (hother : ChangesBetween other front back others) (hne : changes ≠ []) (hne' : others ≠ [])
    (haccepted : ((∅ : Tables).loadText text).error = none) :
    ((∅ : Tables).loadText other).error = none := by
  rw [loadText_error_eq_none_iff] at haccepted ⊢
  obtain ⟨hall, hplaced⟩ := haccepted
  constructor
  · obtain ⟨ls, hlines, -⟩ := h
    obtain ⟨ls', hlines', hls'⟩ := hother
    rw [hlines] at hall
    rw [hlines']
    intro line hline hnonempty
    rcases List.mem_append.mp hline with hfront | hmem
    · exact hall line (List.mem_append_left _ hfront) hnonempty
    rcases List.mem_append.mp hmem with hchange | hback
    · -- A line of a change is read as that change.
      have hread := List.mem_map_of_mem (f := recordOfLine?) hchange
      rw [hls'] at hread
      obtain ⟨c, -, hc⟩ := List.mem_map.mp hread
      exact Option.isSome_of_eq_some hc.symm
    · exact hall line (List.mem_append_right _ (List.mem_append_right _ hback)) hnonempty
  · -- Changes may stand anywhere, and no function is open after them.
    have hrun (cs : List (UInt64 × String)) (hcs : cs ≠ []) (started inFunction : Bool) :
        placed started inFunction ((cs.map fun c => .cfiDelta c.1 c.2) ++
          back.filterMap recordOfLine?) = placed true false (back.filterMap recordOfLine?) := by
      induction cs generalizing started inFunction with
      | nil => exact absurd rfl hcs
      | cons c cs ih =>
        cases cs with
        | nil => rfl
        | cons d cs => exact ih (List.cons_ne_nil d cs) true false
    rw [h.recordsOf_eq] at hplaced
    rw [hother.recordsOf_eq, ← hplaced]
    apply placed_append_congr
    intro started inFunction
    rw [hrun others hne', hrun changes hne]

theorem cfiDeltas_eq (h : ChangesBetween text front back changes)
    (haccepted : ((∅ : Tables).loadText text).error = none) :
    ((∅ : Tables).loadText text).tables.cfiDeltas =
      (ruleChanges (back.filterMap recordOfLine?)).foldl (fun m e => m.insert e.1 e.2)
        (changes.foldl (fun m e => m.insert e.1 e.2)
          (OrderedMap.ofList (ruleChanges (front.filterMap recordOfLine?)))) := by
  rw [cfiDeltas_of_accepted text haccepted, h.ruleChanges_eq, OrderedMap.ofList,
    List.foldl_append, List.foldl_append]
  rfl

theorem cfiInitial_eq (h : ChangesBetween text front back changes)
    (hother : ChangesBetween other front back others)
    (haccepted : ((∅ : Tables).loadText text).error = none)
    (haccepted' : ((∅ : Tables).loadText other).error = none) :
    ((∅ : Tables).loadText other).tables.cfiInitial =
      ((∅ : Tables).loadText text).tables.cfiInitial := by
  rw [cfiInitial_of_accepted text haccepted, cfiInitial_of_accepted other haccepted',
    h.initialRules_eq, hother.initialRules_eq]

end ChangesBetween

/-- Tables answer alike about all frames if they do about all offsets. -/
theorem forall_rules?_eq_iff (t u : Tables) :
    (∀ frame, t.rules? frame = u.rules? frame) ↔ ∀ offset, t.rulesAt? offset = u.rulesAt? offset := by
  constructor
  · intro h offset
    have hframe := h { instruction := ⟨offset⟩, codeModule := some ⟨"", ⟨0⟩, 0, none, none, none⟩ }
    have hoffset : Address.offsetFrom? ⟨offset⟩ ⟨0⟩ = some offset := by
      simp [Address.offsetFrom?]
    unfold Tables.rules? StackFrame.moduleOffset? at hframe
    rw [Option.bind_some, hoffset] at hframe
    exact hframe
  · intro h frame
    unfold Tables.rules?
    exact congrArg _ (funext h)

section Split

variable {text other : List Char} {front back : List (List Char)} {address : UInt64} {r₁ r₂ : String}

/-- Splitting a change goes unnoticed exactly if a later change at its address hides it anyway, or
the rules of its first half that the second half leaves alone are in effect just before it. -/
theorem rulesAt?_split_eq_iff
    (hwhole : ChangesBetween text front back [(address, r₁ ++ " " ++ r₂)])
    (hsplit : ChangesBetween other front back [(address, r₁), (address, r₂)])
    (h₁ : (Cfi.deliver r₁).error = none) (h₂ : (Cfi.deliver r₂).error = none)
    (hload : ((∅ : Tables).loadText text).error = none)
    (hload' : ((∅ : Tables).loadText other).error = none) :
    (∀ offset, ((∅ : Tables).loadText other).tables.rulesAt? offset =
        ((∅ : Tables).loadText text).tables.rulesAt? offset) ↔
      (∃ change ∈ ruleChanges (back.filterMap recordOfLine?), change.1 = address) ∨
      ∀ prior, (((∅ : Tables).loadText text).tables.withoutChange address).rulesAt? address =
          some prior →
        ∀ target expression, Cfi.lastExpression? (Cfi.deliver r₁).rules target = some expression →
          Cfi.lastExpression? (Cfi.deliver r₂).rules target = none →
          prior.expression? target = some expression := by
  have hinitial := hwhole.cfiInitial_eq hsplit hload hload'
  have hdeltas := hwhole.cfiDeltas_eq hload
  have hdeltas' := hsplit.cfiDeltas_eq hload'
  simp only [List.foldl_cons, List.foldl_nil, OrderedMap.insert_insert] at hdeltas hdeltas'
  by_cases hlater : ∃ change ∈ ruleChanges (back.filterMap recordOfLine?), change.1 = address
  · -- Neither change is left in the tables.
    rw [OrderedMap.foldl_insert_hidden _ _ _ (r₁ ++ " " ++ r₂) r₂ hlater, ← hdeltas] at hdeltas'
    exact iff_of_true (Tables.rulesAt?_congr hinitial hdeltas') (Or.inl hlater)
  · -- The tables differ in the change at the address only.
    obtain ⟨hthere, hinsert⟩ := OrderedMap.foldl_insert_kept
      (OrderedMap.ofList (ruleChanges (front.filterMap recordOfLine?)))
      (ruleChanges (back.filterMap recordOfLine?)) address (r₁ ++ " " ++ r₂) r₂ hlater
    rw [hinsert, ← hdeltas] at hdeltas'
    rw [← hdeltas] at hthere
    have hdisjoint : ((∅ : Tables).loadText text).tables.cfiInitial.Disjoint := by
      rw [cfiInitial_of_accepted text hload]
      exact RangeMap.disjoint_empty.offerAll _
    have hsame := OrderedMap.insert_of_get? _ _ _ hthere
    generalize ((∅ : Tables).loadText text).tables = t at *
    generalize ((∅ : Tables).loadText other).tables = u at *
    have hu (offset : UInt64) : u.rulesAt? offset = (t.withChange address r₂).rulesAt? offset :=
      Tables.rulesAt?_congr (t := t.withChange address r₂) hinitial hdeltas' offset
    have ht (offset : UInt64) :
        t.rulesAt? offset = (t.withChange address (r₁ ++ " " ++ r₂)).rulesAt? offset :=
      Tables.rulesAt?_congr (u := t) (t := t.withChange address (r₁ ++ " " ++ r₂)) rfl hsame.symm offset
    have habsorbed (prior : Cfi.RecoveryRules) :
        prior.applyRuleSet r₂ = prior.applyRuleSet (r₁ ++ " " ++ r₂) ↔
          ∀ target expression, Cfi.lastExpression? (Cfi.deliver r₁).rules target = some expression →
            Cfi.lastExpression? (Cfi.deliver r₂).rules target = none →
            prior.expression? target = some expression := by
      rw [prior.applyRuleSet_append r₁ r₂ h₁ h₂, eq_comm]
      exact prior.applyAll_absorbed_iff _ _
    have hiff := t.rulesAt?_withChange_eq_iff hdisjoint address r₂ (r₁ ++ " " ++ r₂)
    simp only [← hu, ← ht, habsorbed] at hiff
    rw [hiff]
    exact ⟨Or.inr, fun h => h.resolve_left hlater⟩

/-- Of two changes in a row at one address the first is as if it were not there. -/
theorem rulesAt?_split_eq_second
    (hsecond : ChangesBetween text front back [(address, r₂)])
    (hsplit : ChangesBetween other front back [(address, r₁), (address, r₂)])
    (hload : ((∅ : Tables).loadText text).error = none)
    (hload' : ((∅ : Tables).loadText other).error = none) (offset : UInt64) :
    ((∅ : Tables).loadText other).tables.rulesAt? offset =
      ((∅ : Tables).loadText text).tables.rulesAt? offset := by
  apply Tables.rulesAt?_congr (hsecond.cfiInitial_eq hsplit hload hload')
  rw [hsecond.cfiDeltas_eq hload, hsplit.cfiDeltas_eq hload']
  simp only [List.foldl_cons, List.foldl_nil, OrderedMap.insert_insert]

end Split

/-- When a change of the rules is split into two at its address, what is found for every frame is what
the second half alone would give. This is what the whole change gives exactly if a later change at the
address hides it, or the rules of the first half that the second half leaves alone are in effect just
before the address anyway. -/
theorem split_change_unnoticed_iff (name : String) (whole split : SymbolBuffer)
    (front back : List (List Char)) (line line₁ line₂ : List Char) (address : UInt64)
    (r₁ r₂ : String) (hwhole : whole.lines = front ++ line :: back)
    (hsplit : split.lines = front ++ line₁ :: line₂ :: back)
    (hline : (Record.cfiDelta address (r₁ ++ " " ++ r₂)).Writes line)
    (hline₁ : (Record.cfiDelta address r₁).Writes line₁)
    (hline₂ : (Record.cfiDelta address r₂).Writes line₂)
    (h₁ : (Cfi.deliver r₁).error = none) (h₂ : (Cfi.deliver r₂).error = none)
    (hload : (TextModule.backend.parse (TextModule.backend.create name) whole).error = none) :
    let parse := TextModule.backend.parse (TextModule.backend.create name)
    let rules (data : SymbolBuffer) (frame : StackFrame) :=
      (TextModule.backend.rules (parse data).loaded frame).value
    (parse split).error = none ∧
    (∀ second : SymbolBuffer, second.lines = front ++ line₂ :: back →
      (parse second).error = none ∧ ∀ frame, rules split frame = rules second frame) ∧
    ((∀ frame, rules split frame = rules whole frame) ↔
      (∃ change ∈ ruleChanges (back.filterMap recordOfLine?), change.1 = address) ∨
      ∀ prior, ((parse whole).loaded.tables.withoutChange address).rulesAt? address = some prior →
        ∀ target expression, Cfi.lastExpression? (Cfi.deliver r₁).rules target = some expression →
          Cfi.lastExpression? (Cfi.deliver r₂).rules target = none →
          prior.expression? target = some expression) := by
  intro parse rules
  have herror (data : SymbolBuffer) : (parse data).error = none ↔
      ((∅ : Tables).loadText (Utf8.decodeLossy data.text)).error = none :=
    Option.map_eq_none_iff
  rw [← recordOfLine?_eq_some_iff] at hline hline₁ hline₂
  have hwholeBetween : ChangesBetween (Utf8.decodeLossy whole.text) front back
      [(address, r₁ ++ " " ++ r₂)] := by
    refine ⟨[line], hwhole, ?_⟩
    rw [List.map_singleton, hline]
    rfl
  have hsplitBetween : ChangesBetween (Utf8.decodeLossy split.text) front back
      [(address, r₁), (address, r₂)] := by
    refine ⟨[line₁, line₂], hsplit, ?_⟩
    rw [List.map_cons, List.map_singleton, hline₁, hline₂]
    rfl
  have haccepted := (herror whole).mp hload
  have hsplitAccepted := hwholeBetween.accepted_of_accepted hsplitBetween (List.cons_ne_nil _ _)
    (List.cons_ne_nil _ _) haccepted
  refine ⟨(herror split).mpr hsplitAccepted, ?_, ?_⟩
  · intro second hsecond
    have hsecondBetween : ChangesBetween (Utf8.decodeLossy second.text) front back
        [(address, r₂)] := by
      refine ⟨[line₂], hsecond, ?_⟩
      rw [List.map_singleton, hline₂]
      rfl
    have hsecondAccepted := hwholeBetween.accepted_of_accepted hsecondBetween
      (List.cons_ne_nil _ _) (List.cons_ne_nil _ _) haccepted
    refine ⟨(herror second).mpr hsecondAccepted, ?_⟩
    exact (forall_rules?_eq_iff _ _).mpr
      (rulesAt?_split_eq_second hsecondBetween hsplitBetween hsecondAccepted hsplitAccepted)
  · exact (forall_rules?_eq_iff _ _).trans
      (rulesAt?_split_eq_iff hwholeBetween hsplitBetween h₁ h₂ haccepted hsplitAccepted)

/-- A file with an initial rule set and the given changes. -/
def changedRulesFile (changes : List String) : SymbolBuffer where
  content := ("STACK CFI INIT 10 10 .cfa: $sp 8 + .ra: .cfa 8 - ^" :: changes).flatMap fun line =>
    (SymbolBuffer.ofText (line ++ "\n")).content

/-- A split that goes unnoticed: the first half says what is so already. -/
theorem split_change_unnoticed :
    let parse := TextModule.backend.parse (TextModule.backend.create "m")
    let rules (data : SymbolBuffer) (frame : StackFrame) :=
      (TextModule.backend.rules (parse data).loaded frame).value
    (parse (changedRulesFile ["STACK CFI 14 .cfa: $sp 8 + $bp: 1"])).error = none ∧
    ∀ frame, rules (changedRulesFile ["STACK CFI 14 .cfa: $sp 8 +", "STACK CFI 14 $bp: 1"]) frame =
      rules (changedRulesFile ["STACK CFI 14 .cfa: $sp 8 + $bp: 1"]) frame := by
  intro parse rules
  have hload : (parse (changedRulesFile ["STACK CFI 14 .cfa: $sp 8 + $bp: 1"])).error = none := by
    decide +kernel
  have hdelta (line : String) (address : UInt64) (r : String)
      (h : recordOfLine? line.toList = some (.cfiDelta address r)) :
      (Record.cfiDelta address r).Writes line.toList := (recordOfLine?_eq_some_iff _ _).mp h
  refine ⟨hload, ?_⟩
  obtain ⟨-, -, hiff⟩ := split_change_unnoticed_iff "m"
    (changedRulesFile ["STACK CFI 14 .cfa: $sp 8 + $bp: 1"])
    (changedRulesFile ["STACK CFI 14 .cfa: $sp 8 +", "STACK CFI 14 $bp: 1"])
    ["STACK CFI INIT 10 10 .cfa: $sp 8 + .ra: .cfa 8 - ^".toList] [[]]
    "STACK CFI 14 .cfa: $sp 8 + $bp: 1".toList "STACK CFI 14 .cfa: $sp 8 +".toList
    "STACK CFI 14 $bp: 1".toList 0x14 ".cfa: $sp 8 +" "$bp: 1" (by decide +kernel)
    (by decide +kernel) (hdelta _ _ _ (by decide +kernel)) (hdelta _ _ _ (by decide +kernel))
    (hdelta _ _ _ (by decide +kernel)) (by decide +kernel) (by decide +kernel) hload
  rw [hiff]
  refine Or.inr ?_
  intro prior hprior target expression hfirst _
  have hbefore : ((parse (changedRulesFile
      ["STACK CFI 14 .cfa: $sp 8 + $bp: 1"])).loaded.tables.withoutChange 0x14).rulesAt? 0x14 =
      some { cfa := some "$sp 8 +", ra := some ".cfa 8 - ^" } := by decide +kernel
  have hrules : (Cfi.deliver ".cfa: $sp 8 +").rules = [⟨.cfa, "$sp 8 +"⟩] := by decide +kernel
  rw [← Option.some.inj (hbefore.symm.trans hprior)]
  rw [hrules] at hfirst
  cases target with
  | cfa => exact hfirst
  | ra | register => cases hfirst

/-- A split that loses the frame address: the second change takes the place of the first. -/
theorem split_change_loses_frame_address :
    let parse := TextModule.backend.parse (TextModule.backend.create "m")
    let whole := changedRulesFile ["STACK CFI 14 .cfa: $sp 16 + $bp: .cfa 16 - ^"]
    let split := changedRulesFile ["STACK CFI 14 .cfa: $sp 16 +", "STACK CFI 14 $bp: .cfa 16 - ^"]
    let frame : StackFrame :=
      { instruction := ⟨0x14⟩, codeModule := some ⟨"m", ⟨0⟩, 0x100, none, none, none⟩ }
    (Cfi.deliver ".cfa: $sp 16 +").error = none ∧
    (Cfi.deliver "$bp: .cfa 16 - ^").error = none ∧
    (parse whole).error = none ∧ (parse split).error = none ∧
    ((TextModule.backend.rules (parse whole).loaded frame).value.map (·.text)) =
      some ".cfa: $sp 16 + .ra: .cfa 8 - ^ $bp: .cfa 16 - ^" ∧
    ((TextModule.backend.rules (parse split).loaded frame).value.map (·.text)) =
      some ".cfa: $sp 8 + .ra: .cfa 8 - ^ $bp: .cfa 16 - ^" := by
  decide +kernel

end SymbolFile

end Symbolication
