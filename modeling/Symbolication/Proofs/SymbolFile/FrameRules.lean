import Mathlib.Data.List.Sort
import Symbolication.Proofs.SymbolFile.Contents
import Symbolication.Resolver.Backend

/-!
The recovery rules at an offset, read off the whole file. The initial rule set that covers the offset
delivers the first rules; then come the rules of the changes from the start of its range up to the
offset, by ascending address and not in the order of the file. For each target the last rule counts.
-/

namespace Symbolication

namespace Cfi

/-- The expression that the rule has for `target`. -/
def Rule.expressionFor? (target : Target) (rule : Rule) : Option String :=
  if rule.target = target then some rule.expression else none

/-- The last expression that the rules have for `target`. -/
def lastExpression? (rules : List Rule) (target : Target) : Option String :=
  (rules.filterMap (Rule.expressionFor? target)).getLast?

namespace RecoveryRules

/-- The expression for a target of any kind. -/
def expression? (r : RecoveryRules) : Target → Option String
  | .cfa => r.cfa
  | .ra => r.ra
  | .register name => r.register? name

theorem expression?_empty (target : Target) : (∅ : RecoveryRules).expression? target = none := by
  cases target <;> rfl

theorem expression?_apply (r : RecoveryRules) (rule : Rule) (target : Target) :
    (r.apply rule).expression? target = (rule.expressionFor? target).or (r.expression? target) := by
  obtain ⟨name, expression⟩ := rule
  unfold apply Rule.expressionFor?
  cases name with
  | cfa => cases target <;> simp [set, expression?, register?]
  | ra => cases target <;> simp [set, expression?, register?]
  | register n =>
    cases target with
    | cfa | ra => simp [set, expression?]
    | register other =>
      simp only [set, expression?, register?, OrderedMap.get?_insert, Target.register.injEq, eq_comm]
      split <;> rfl

/-- After some rules each target has the last expression that they have for it. -/
theorem expression?_applyAll (r : RecoveryRules) (rules : List Rule) (target : Target) :
    (r.applyAll rules).expression? target =
      (lastExpression? rules target).or (r.expression? target) := by
  have hview : rules.foldl (fun o rule => (rule.expressionFor? target).or o) (r.expression? target) =
      (r.applyAll rules).expression? target :=
    List.foldl_hom (fun r : RecoveryRules => r.expression? target) fun r rule =>
      (expression?_apply r rule target).symm
  rw [← hview, SymbolFile.foldl_or_last]
  rfl

/-- Rule sets one after the other are their rules one after the other. -/
theorem foldl_applyRuleSet (r : RecoveryRules) (ruleSets : List String) :
    ruleSets.foldl applyRuleSet r = r.applyAll (ruleSets.flatMap fun s => (deliver s).rules) :=
  List.foldl_flatMap.symm

end RecoveryRules

end Cfi

namespace SymbolFile

/-- The initial rule set of the record, with its range. -/
def Record.initialRules? : Record → Option (Range String)
  | .cfiInit base size rules => some ⟨base, size, rules⟩
  | _ => none

/-- The initial rule sets that stay, in the order of the file. -/
def keptInitialRules (rs : List Record) : List (Range String) :=
  Range.keep (rs.filterMap Record.initialRules?)

/-- The change of the rules that the record makes at an address. -/
def Record.ruleChange? : Record → Option (UInt64 × String)
  | .cfiDelta address rules => some (address, rules)
  | _ => none

def ruleChanges (rs : List Record) : List (UInt64 × String) := rs.filterMap Record.ruleChange?

/-- The changes at the addresses from `lo` to `hi`, by ascending address. -/
def ruleChangesBetween (rs : List Record) (lo hi : UInt64) : List (UInt64 × String) :=
  ((ruleChanges rs).filter fun change => lo ≤ change.1 ∧ change.1 ≤ hi).insertionSort
    fun change other => change.1 ≤ other.1

/-- The rules delivered for `offset`, in order, when `initial` is the initial rule set there. -/
def deliveredRules (rs : List Record) (initial : Range String) (offset : UInt64) : List Cfi.Rule :=
  (Cfi.deliver initial.value).rules ++
    (ruleChangesBetween rs initial.base offset).flatMap fun change => (Cfi.deliver change.2).rules

theorem mem_ruleChangesBetween_iff (rs : List Record) (lo hi : UInt64) (change : UInt64 × String) :
    change ∈ ruleChangesBetween rs lo hi ↔
      change ∈ ruleChanges rs ∧ lo ≤ change.1 ∧ change.1 ≤ hi := by
  rw [ruleChangesBetween, List.mem_insertionSort, List.mem_filter, decide_eq_true_iff]

/-- Changes at different addresses are in strictly ascending order. -/
theorem pairwise_ruleChangesBetween (rs : List Record)
    (hdistinct : ((ruleChanges rs).map Prod.fst).Nodup) (lo hi : UInt64) :
    (ruleChangesBetween rs lo hi).Pairwise fun change other =>
      compare change.1 other.1 = .lt := by
  let r (change other : UInt64 × String) : Prop := change.1 ≤ other.1
  -- Sorting gives the weak order; that no two addresses are equal makes it strict.
  have htotal : Std.Total r := ⟨fun change other => UInt64.le_total change.1 other.1⟩
  have htrans : IsTrans _ r := ⟨fun _ _ _ => UInt64.le_trans⟩
  have hascending : (ruleChangesBetween rs lo hi).Pairwise r := List.pairwise_insertionSort r _
  have hnodup : ((ruleChangesBetween rs lo hi).map Prod.fst).Nodup :=
    ((List.perm_insertionSort r _).map Prod.fst).nodup_iff.mpr
      (hdistinct.sublist (List.filter_sublist.map Prod.fst))
  have hne : (ruleChangesBetween rs lo hi).Pairwise fun change other => change.1 ≠ other.1 :=
    List.pairwise_map.mp hnodup
  refine (hascending.and hne).imp ?_
  rintro change other ⟨hle, hne⟩
  rw [Std.compare_eq_lt]
  exact Std.lt_of_le_of_ne hle hne

namespace Tables

theorem put_cfiInitial (t : Tables) (r : Record) :
    (t.put r).cfiInitial = r.initialRules?.elim t.cfiInitial t.cfiInitial.offer := by
  unfold put addPublicSymbol
  split <;> (try split) <;> rfl

theorem put_cfiDeltas (t : Tables) (r : Record) :
    (t.put r).cfiDeltas =
      r.ruleChange?.elim t.cfiDeltas fun change => t.cfiDeltas.insert change.1 change.2 := by
  unfold put addPublicSymbol
  split <;> (try split) <;> rfl

end Tables

section Accepted

variable (text : List Char) (h : ((∅ : Tables).loadText text).error = none)

include h

theorem find?_cfiInitial_of_accepted (offset : UInt64) (initial : Range String) :
    ((∅ : Tables).loadText text).tables.cfiInitial.find? offset = some initial ↔
      initial ∈ keptInitialRules (recordsOf text) ∧ initial.covers offset = true := by
  rw [find?_of_accepted text h Tables.cfiInitial Record.initialRules? rfl (fun _ _ => rfl)
    Tables.put_cfiInitial]
  exact Range.find?_keep_eq_some_iff _ offset initial

theorem cfiDeltas_of_accepted :
    ((∅ : Tables).loadText text).tables.cfiDeltas =
      OrderedMap.ofList (ruleChanges (recordsOf text)) :=
  table_of_accepted text h Tables.cfiDeltas Record.ruleChange?
    (fun m change => m.insert change.1 change.2) (fun _ _ => rfl) Tables.put_cfiDeltas

/-- The changes in a span of addresses are those that the records make there. -/
theorem between_cfiDeltas_of_accepted
    (hdistinct : ((ruleChanges (recordsOf text)).map Prod.fst).Nodup) (lo hi : UInt64) :
    ((∅ : Tables).loadText text).tables.cfiDeltas.between lo hi =
      ruleChangesBetween (recordsOf text) lo hi := by
  have hmem (change : UInt64 × String) :
      change ∈ ((∅ : Tables).loadText text).tables.cfiDeltas.entries ↔
        change ∈ ruleChanges (recordsOf text) := by
    rw [cfiDeltas_of_accepted text h, ← OrderedMap.get?_eq_some_iff]
    exact OrderedMap.get?_ofList_eq_some_iff _ hdistinct _ _
  -- Both lists ascend strictly, so it is enough that they have the same members.
  refine OrderedMap.eq_of_mem_iff (List.Pairwise.filter _ (OrderedMap.ascending _))
    (pairwise_ruleChangesBetween _ hdistinct lo hi) ?_
  intro change
  rw [mem_ruleChangesBetween_iff, OrderedMap.mem_between_toNat_iff, hmem, UInt64.le_iff_toNat_le,
    UInt64.le_iff_toNat_le]

/-- The rules that are found with an initial rule set that is not refused. -/
theorem rulesAt?_of_accepted (hdistinct : ((ruleChanges (recordsOf text)).map Prod.fst).Nodup)
    (offset : UInt64) (initial : Range String) (hinitial : initial ∈ keptInitialRules (recordsOf text))
    (hcovers : initial.covers offset = true) :
    ((∅ : Tables).loadText text).tables.rulesAt? offset =
      if (Cfi.deliver initial.value).error.isSome then none
      else some ((∅ : Cfi.RecoveryRules).applyAll (deliveredRules (recordsOf text) initial offset)) := by
  have hfind := (find?_cfiInitial_of_accepted text h offset initial).mpr ⟨hinitial, hcovers⟩
  unfold Tables.rulesAt? Tables.ruleSetsAt?
  rw [hfind, Option.map_some, between_cfiDeltas_of_accepted text h hdistinct]
  dsimp only
  split
  · rfl
  · rw [Cfi.RecoveryRules.foldl_applyRuleSet, List.flatMap_map]
    exact congrArg some (List.foldl_append).symm

end Accepted

/-- The rules that a fresh module finds for a frame once it has accepted a symbol file, provided that
no two changes stand at one address. -/
theorem rules_loaded_eq_last_delivered (name : String) (data : SymbolBuffer)
    (hload : (TextModule.backend.parse (TextModule.backend.create name) data).error = none)
    (hdistinct : ((ruleChanges (recordsOf (Utf8.decodeLossy data.text))).map Prod.fst).Nodup)
    (frame : StackFrame) (offset : UInt64) (hoffset : frame.moduleOffset? = some offset) :
    let rs := recordsOf (Utf8.decodeLossy data.text)
    let loaded := (TextModule.backend.parse (TextModule.backend.create name) data).loaded
    let answer := (TextModule.backend.rules loaded frame).value
    (answer = none ↔ ∀ initial ∈ keptInitialRules rs, initial.covers offset = true →
      (Cfi.deliver initial.value).error ≠ none) ∧
    ∀ initial ∈ keptInitialRules rs, initial.covers offset = true →
      (Cfi.deliver initial.value).error = none →
      (∃ found, answer = some found ∧ ∀ target,
        found.expression? target = Cfi.lastExpression? (deliveredRules rs initial offset) target) ∧
      ∀ change ∈ ruleChangesBetween rs initial.base offset,
        initial.covers change.1 = true ∧ change.1 ≤ offset := by
  intro rs loaded answer
  have haccepted : ((∅ : Tables).loadText (Utf8.decodeLossy data.text)).error = none :=
    Option.map_eq_none_iff.mp hload
  have hanswer : answer =
      ((∅ : Tables).loadText (Utf8.decodeLossy data.text)).tables.rulesAt? offset := by
    have hrules (t : Tables) : t.rules? frame = t.rulesAt? offset := by
      rw [Tables.rules?, hoffset, Option.bind_some]
    exact hrules _
  constructor
  · constructor
    · intro hnone initial hinitial hcovers
      rw [hanswer, rulesAt?_of_accepted _ haccepted hdistinct offset initial hinitial hcovers] at hnone
      intro herror
      rw [herror] at hnone
      cases hnone
    · intro hall
      rw [hanswer]
      cases hfind : ((∅ : Tables).loadText (Utf8.decodeLossy data.text)).tables.cfiInitial.find?
          offset with
      | none =>
        -- No initial rule set covers the offset.
        unfold Tables.rulesAt? Tables.ruleSetsAt?
        rw [hfind]
        rfl
      | some initial =>
        obtain ⟨hinitial, hcovers⟩ := (find?_cfiInitial_of_accepted _ haccepted offset initial).mp hfind
        rw [rulesAt?_of_accepted _ haccepted hdistinct offset initial hinitial hcovers,
          if_pos (Option.isSome_iff_ne_none.mpr (hall initial hinitial hcovers))]
  · intro initial hinitial hcovers haccept
    constructor
    · refine ⟨(∅ : Cfi.RecoveryRules).applyAll (deliveredRules rs initial offset), ?_, ?_⟩
      · rw [hanswer, rulesAt?_of_accepted _ haccepted hdistinct offset initial hinitial hcovers,
          haccept]
        rfl
      · intro target
        rw [Cfi.RecoveryRules.expression?_applyAll, Cfi.RecoveryRules.expression?_empty, Option.or_none]
    · -- From the start of the range up to a covered offset, every address is covered.
      intro change hchange
      obtain ⟨-, hlo, hhi⟩ := (mem_ruleChangesBetween_iff rs _ _ change).mp hchange
      refine ⟨?_, hhi⟩
      rw [Range.covers_iff] at hcovers ⊢
      rw [UInt64.le_iff_toNat_le] at hlo hhi
      omega

/-- A file in which the changes stand out of order, one of them is refused part way, and an initial
rule set does not stay. -/
def reorderedChangesFile : SymbolBuffer where
  content := ["STACK CFI 9 .cfa: $sp 4 + $bx: 7 $bp:", "STACK CFI INIT 4 8 .cfa: $sp .ra: 1",
    "STACK CFI INIT 8 4 .cfa: $bp .ra: 5", "STACK CFI a .ra: 2", "STACK CFI 6 .cfa: $sp 8 + $bx: 3",
    "STACK CFI 2 .ra: 6"].flatMap fun line => (SymbolBuffer.ofText (line ++ "\n")).content

theorem rules_reorderedChangesFile :
    let frame : StackFrame :=
      { instruction := ⟨0x4009⟩, codeModule := some ⟨"m", ⟨0x4000⟩, 0x100, none, none, none⟩ }
    let parsed := TextModule.backend.parse (TextModule.backend.create "m") reorderedChangesFile
    parsed.error = none ∧
    ((ruleChanges (recordsOf (Utf8.decodeLossy reorderedChangesFile.text))).map Prod.fst).Nodup ∧
    frame.moduleOffset? = some 9 ∧
    ∃ found, (TextModule.backend.rules parsed.loaded frame).value = some found ∧
      found.expression? .cfa = some "$sp 4 +" ∧ found.expression? .ra = some "1" ∧
      found.expression? (.register "$bx") = some "7" ∧
      found.expression? (.register "$bp") = none := by
  intro frame parsed
  have hrecords : recordsOf (Utf8.decodeLossy reorderedChangesFile.text) =
      [.cfiDelta 9 ".cfa: $sp 4 + $bx: 7 $bp:", .cfiInit 4 8 ".cfa: $sp .ra: 1",
        .cfiInit 8 4 ".cfa: $bp .ra: 5", .cfiDelta 0xa ".ra: 2", .cfiDelta 6 ".cfa: $sp 8 + $bx: 3",
        .cfiDelta 2 ".ra: 6"] := by decide +kernel
  have hload : parsed.error = none := by decide +kernel
  have hdistinct : ((ruleChanges (recordsOf (Utf8.decodeLossy reorderedChangesFile.text))).map
      Prod.fst).Nodup := by
    rw [hrecords]
    decide
  refine ⟨hload, hdistinct, by decide, ?_⟩
  obtain ⟨-, hfound⟩ :=
    rules_loaded_eq_last_delivered "m" reorderedChangesFile hload hdistinct frame 9 (by decide)
  rw [hrecords] at hfound
  obtain ⟨⟨found, hanswer, hexpression⟩, -⟩ :=
    hfound ⟨4, 8, ".cfa: $sp .ra: 1"⟩ (by decide) (by decide) (by decide +kernel)
  refine ⟨found, hanswer, ?_⟩
  simp only [hexpression]
  decide +kernel

end SymbolFile

end Symbolication
