import Symbolication.Proofs.Cfi.RuleSetGrammar
import Symbolication.Proofs.SymbolFile.FrameRules

/-!
The text of recovery rules as a rule set. What rule sets leave behind, accepted or not, can be written
down as groups again: every name and every expression came out of a complete group. Reading the text
back therefore gives the same rules.
-/

namespace Symbolication.Cfi

open Text (IsToken Spaced)

theorem Target.name_ofName (n : String) : (Target.ofName n).name = n := by
  unfold ofName
  split
  · rename_i hcfa
    exact hcfa.symm
  · split
    · rename_i hra
      exact hra.symm
    · rfl

/-- The group stays what it is when its tokens are joined by single spaces. -/
structure Group.Writable (g : Group) : Prop extends g.Complete where
  isToken : ∀ t ∈ g.tokens, IsToken t

/-- What is delivered are the groups at the beginning, as far as they are closed. -/
theorem exists_groups_of_deliverTokens (ts : List (List Char)) :
    ∃ (closed : List Group) (rest : List (List Char)), (∀ g ∈ closed, g.Complete) ∧
      ts = closed.flatMap Group.tokens ++ rest ∧
        (deliverTokens ts).rules = closed.map Group.rule := by
  rcases groups_or_refused ts with ⟨groups, hne, hgroups, rfl⟩ | ⟨closed, e, hrefused⟩
  · refine ⟨groups, [], hgroups, (List.append_nil _).symm, ?_⟩
    rw [deliverTokens_groups groups hne hgroups]
  · have hdelivered := congrArg Delivery.rules (deliverTokens_of_refused hrefused)
    have hnone : ∀ g ∈ ([] : List Group), g.Complete := fun g hg => absurd hg List.not_mem_nil
    cases hrefused with
    | empty => exact ⟨[], [], hnone, rfl, hdelivered⟩
    | missingName t rest ht => exact ⟨[], _, hnone, rfl, hdelivered⟩
    | emptyFirstName rest => exact ⟨[], _, hnone, rfl, hdelivered⟩
    | emptyName _ g rest hclosed hg => exact ⟨closed, _, hclosed, rfl, hdelivered⟩
    | nameAfterName _ name next rest hclosed hname hnext =>
      exact ⟨closed, _, hclosed, rfl, hdelivered⟩
    | nameAtEnd _ name hclosed hname => exact ⟨closed, _, hclosed, rfl, hdelivered⟩

theorem exists_writable_of_mem_deliver (ruleSet : String) (rule : Rule)
    (h : rule ∈ (deliver ruleSet).rules) : ∃ g : Group, g.Writable ∧ g.rule = rule := by
  obtain ⟨closed, rest, hclosed, htokens, hrules⟩ :=
    exists_groups_of_deliverTokens (Text.tokens ruleSet.toList)
  have hspaced : Spaced (Text.tokens ruleSet.toList) ruleSet.toList :=
    (Text.tokens_eq_iff _ _).mp rfl
  rw [deliver, hrules] at h
  obtain ⟨g, hg, hrule⟩ := List.mem_map.mp h
  refine ⟨g, ⟨hclosed g hg, ?_⟩, hrule⟩
  intro t ht
  apply hspaced.isToken t
  rw [htokens]
  exact List.mem_append_left _ (List.mem_flatMap.mpr ⟨g, hg, ht⟩)

theorem exists_groups (rules : List Rule)
    (h : ∀ rule ∈ rules, ∃ g : Group, g.Writable ∧ g.rule = rule) :
    ∃ groups : List Group, (∀ g ∈ groups, g.Writable) ∧ groups.map Group.rule = rules := by
  induction rules with
  | nil => exact ⟨[], fun g hg => absurd hg List.not_mem_nil, rfl⟩
  | cons rule rules ih =>
    obtain ⟨⟨g, hg, hrule⟩, hrules⟩ := List.forall_mem_cons.mp h
    obtain ⟨groups, hgroups, hmap⟩ := ih hrules
    refine ⟨g :: groups, List.forall_mem_cons.mpr ⟨hg, hgroups⟩, ?_⟩
    rw [List.map_cons, hrule, hmap]

/-- The tokens of the group with single spaces between them. -/
def Group.text (g : Group) : String := " ".intercalate (g.tokens.map String.ofList)

def Rule.text (rule : Rule) : String := rule.target.name ++ ": " ++ rule.expression

theorem Group.text_rule (g : Group) (hg : g.Complete) : g.rule.text = g.text := by
  have hexpression : g.expression.map String.ofList ≠ [] := by
    intro hnil
    exact hg.nonempty (List.map_eq_nil_iff.mp hnil)
  have hcolon : String.ofList (g.name ++ [':']) ++ " " = String.ofList g.name ++ ": " := by
    rw [String.ofList_append, String.append_assoc]
    rfl
  rw [Rule.text, rule, Target.name_ofName, text, tokens, List.map_cons,
    String.intercalate_cons_of_ne_nil hexpression, hcolon]

theorem intercalate_text (groups : List Group) :
    " ".intercalate (groups.map Group.text) =
      " ".intercalate ((groups.flatMap Group.tokens).map String.ofList) := by
  induction groups with
  | nil => rfl
  | cons g groups ih =>
    rw [List.map_cons, List.flatMap_cons, List.map_append]
    cases groups with
    | nil =>
      rw [List.flatMap_nil, List.map_nil, List.map_nil, List.append_nil, String.intercalate_singleton]
      rfl
    | cons other groups =>
      have htexts : (other :: groups).map Group.text ≠ [] := List.cons_ne_nil _ _
      have hg : g.tokens.map String.ofList ≠ [] := List.cons_ne_nil _ _
      have hrest : ((other :: groups).flatMap Group.tokens).map String.ofList ≠ [] :=
        List.cons_ne_nil _ _
      rw [String.intercalate_cons_of_ne_nil htexts, ih, String.intercalate_append_of_ne_nil hg hrest]
      rfl

namespace RecoveryRules

/-- The rules in effect, one for each target that has one. -/
def rules (r : RecoveryRules) : List Rule :=
  (r.cfa.map (⟨.cfa, ·⟩)).toList ++ (r.ra.map (⟨.ra, ·⟩)).toList ++
    r.registers.entries.map fun entry => ⟨.register entry.1, entry.2⟩

theorem toList_eq (r : RecoveryRules) :
    r.toList = r.rules.map fun rule => (rule.target.name, rule.expression) := by
  rw [toList, rules, List.map_append, List.map_append, List.map_map]
  congr 1
  · cases r.cfa <;> cases r.ra <;> rfl
  · exact (List.map_id _).symm

theorem text_eq (r : RecoveryRules) :
    r.text = " ".intercalate (r.rules.map Rule.text) := by
  rw [text, toList_eq, List.map_map]
  rfl

theorem mem_rules (r : RecoveryRules) (rule : Rule) (h : rule ∈ r.rules) :
    r.expression? rule.target = some rule.expression := by
  rw [rules, List.mem_append, List.mem_append, Option.mem_toList, Option.mem_toList] at h
  rcases h with (hcfa | hra) | hregister
  · obtain ⟨expression, hfound, rfl⟩ := Option.map_eq_some_iff.mp hcfa
    exact hfound
  · obtain ⟨expression, hfound, rfl⟩ := Option.map_eq_some_iff.mp hra
    exact hfound
  · obtain ⟨entry, hentry, rfl⟩ := List.mem_map.mp hregister
    exact OrderedMap.get?_eq_some_iff.mpr hentry

theorem rules_eq_nil_iff (r : RecoveryRules) : r.rules = [] ↔ r.isEmpty = true := by
  rw [rules, isEmpty, List.append_eq_nil_iff, List.append_eq_nil_iff, List.map_eq_nil_iff,
    Bool.and_eq_true, Bool.and_eq_true, OrderedMap.isEmpty, List.isEmpty_iff]
  cases r.cfa <;> cases r.ra <;> simp

theorem applyAll_registers (r : RecoveryRules) (entries : List (String × String)) :
    r.applyAll (entries.map fun entry => ⟨.register entry.1, entry.2⟩) =
      { r with registers := entries.foldl (fun m entry => m.insert entry.1 entry.2) r.registers } := by
  induction entries generalizing r with
  | nil => rfl
  | cons entry entries ih => exact ih _

theorem ofList_entries (m : OrderedMap String String) : OrderedMap.ofList m.entries = m := by
  apply OrderedMap.ext_get?
  intro name
  apply Option.ext
  intro expression
  rw [OrderedMap.get?_ofList_eq_some_iff _ m.nodup_keys, OrderedMap.get?_eq_some_iff]

/-- The rules in effect, applied one after the other, come to what they were taken from. -/
theorem applyAll_rules (r : RecoveryRules) : (∅ : RecoveryRules).applyAll r.rules = r := by
  obtain ⟨cfa, ra, registers⟩ := r
  have haddresses : (∅ : RecoveryRules).applyAll
      ((cfa.map (⟨.cfa, ·⟩)).toList ++ (ra.map (⟨.ra, ·⟩)).toList) = ⟨cfa, ra, ∅⟩ := by
    cases cfa <;> cases ra <;> rfl
  rw [rules, applyAll, List.foldl_append]
  show ((∅ : RecoveryRules).applyAll _).applyAll _ = _
  rw [haddresses, applyAll_registers]
  exact congrArg (RecoveryRules.mk cfa ra) (ofList_entries registers)

/-- Every rule in effect can be written as a group. -/
def Written (r : RecoveryRules) : Prop :=
  ∀ target expression, r.expression? target = some expression →
    ∃ g : Group, g.Writable ∧ g.rule = ⟨target, expression⟩

theorem written_empty : (∅ : RecoveryRules).Written := by
  intro target expression h
  rw [expression?_empty] at h
  cases h

variable {r : RecoveryRules}

theorem Written.apply (h : r.Written) (rule : Rule)
    (hrule : ∃ g : Group, g.Writable ∧ g.rule = rule) : (r.apply rule).Written := by
  intro target expression hfound
  rw [expression?_apply, Option.or_eq_some_iff] at hfound
  rcases hfound with hnew | ⟨-, hold⟩
  · rw [Rule.expressionFor?, Option.ite_none_right_eq_some] at hnew
    obtain ⟨rfl, hexpression⟩ := hnew
    cases hexpression
    exact hrule
  · exact h target expression hold

theorem Written.applyAll (h : r.Written) (rules : List Rule)
    (hrules : ∀ rule ∈ rules, ∃ g : Group, g.Writable ∧ g.rule = rule) :
    (r.applyAll rules).Written := by
  induction rules generalizing r with
  | nil => exact h
  | cons rule rules ih =>
    obtain ⟨hrule, hrules⟩ := List.forall_mem_cons.mp hrules
    exact ih (h.apply rule hrule) hrules

theorem Written.applyRuleSet (h : r.Written) (ruleSet : String) :
    (r.applyRuleSet ruleSet).Written :=
  h.applyAll _ (exists_writable_of_mem_deliver ruleSet)

theorem written_foldl_applyRuleSet (h : r.Written) (ruleSets : List String) :
    (ruleSets.foldl RecoveryRules.applyRuleSet r).Written := by
  induction ruleSets generalizing r with
  | nil => exact h
  | cons ruleSet ruleSets ih => exact ih (h.applyRuleSet ruleSet)

theorem Written.deliver_text (h : r.Written) (hne : r.rules ≠ []) :
    deliver r.text = ⟨r.rules, none⟩ := by
  obtain ⟨groups, hgroups, hmap⟩ := exists_groups r.rules fun rule hrule =>
    h rule.target rule.expression (mem_rules r rule hrule)
  have hcomplete : ∀ g ∈ groups, g.Complete := fun g hg => (hgroups g hg).toComplete
  have hnonempty : groups ≠ [] := by
    intro hnil
    rw [hnil] at hmap
    exact hne hmap.symm
  have htext : r.text.toList = Text.joinTokens (groups.flatMap Group.tokens) := by
    have hgroup : groups.map (Rule.text ∘ Group.rule) = groups.map Group.text :=
      List.map_congr_left fun g hg => g.text_rule (hcomplete g hg)
    rw [text_eq, ← hmap, List.map_map, hgroup, intercalate_text, ← ofList_joinTokens,
      String.toList_ofList]
  have hspaced : Spaced (groups.flatMap Group.tokens) r.text.toList := by
    rw [htext]
    apply Text.spaced_joinTokens
    intro t ht
    obtain ⟨g, hg, ht⟩ := List.mem_flatMap.mp ht
    exact (hgroups g hg).isToken t ht
  rw [deliver, Text.tokens_of_spaced hspaced, deliverTokens_groups groups hnonempty hcomplete, hmap]

theorem deliver_text_of_rules_eq_nil (h : r.rules = []) : deliver r.text = .refuse .empty := by
  rw [text_eq, h]
  rfl

theorem Written.applyRuleSet_text (h : r.Written) : (∅ : RecoveryRules).applyRuleSet r.text = r := by
  have hrules : (deliver r.text).rules = r.rules := by
    by_cases hne : r.rules = []
    · rw [deliver_text_of_rules_eq_nil hne, hne]
      rfl
    · rw [h.deliver_text hne]
  rw [RecoveryRules.applyRuleSet, hrules, applyAll_rules]

theorem Written.deliver_text_error_eq_none_iff (h : r.Written) :
    (deliver r.text).error = none ↔ r.isEmpty = false := by
  rw [← Bool.not_eq_true, ← rules_eq_nil_iff]
  by_cases hne : r.rules = []
  · rw [deliver_text_of_rules_eq_nil hne]
    simp [Delivery.refuse, hne]
  · rw [h.deliver_text hne]
    simp [hne]

/-- The rules that rule sets leave behind when they are read one after the other. -/
def ofRuleSets (ruleSets : List String) : RecoveryRules := ruleSets.foldl applyRuleSet ∅

theorem written_ofRuleSets (ruleSets : List String) : (ofRuleSets ruleSets).Written :=
  written_foldl_applyRuleSet written_empty ruleSets

/-- Rules that come from rule sets, whatever the texts, are read back from their own text unless there
are none; and different rules have different texts. -/
theorem text_of_ruleSets_reads_back (ruleSets : List String) :
    ((deliver (ofRuleSets ruleSets).text).error = none ↔ (ofRuleSets ruleSets).isEmpty = false) ∧
      (∅ : RecoveryRules).applyRuleSet (ofRuleSets ruleSets).text = ofRuleSets ruleSets ∧
      ((∅ : RecoveryRules).applyRuleSet (ofRuleSets ruleSets).text).text =
        (ofRuleSets ruleSets).text ∧
      ∀ others : List String, (ofRuleSets others).text = (ofRuleSets ruleSets).text ↔
        ofRuleSets others = ofRuleSets ruleSets := by
  have hread : (∅ : RecoveryRules).applyRuleSet (ofRuleSets ruleSets).text = ofRuleSets ruleSets :=
    (written_ofRuleSets ruleSets).applyRuleSet_text
  refine ⟨(written_ofRuleSets ruleSets).deliver_text_error_eq_none_iff, hread,
    congrArg text hread, ?_⟩
  intro others
  constructor
  · intro htext
    have hothers := (written_ofRuleSets others).applyRuleSet_text
    rw [← hothers, htext]
    exact hread
  · intro heq
    rw [heq]

end RecoveryRules

end Symbolication.Cfi
