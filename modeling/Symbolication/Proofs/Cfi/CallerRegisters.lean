import Symbolication.Cfi.CallerRegisters
import Symbolication.OrderedMap.Lemmas
import Symbolication.Proofs.Postfix.Step

/-!
The registers of a caller, rule by rule. Recovery succeeds exactly if every rule has a value where it
is evaluated: the frame address in the registers of the frame, every other rule in those registers
with the frame address added. No rule is evaluated with the value of another one in sight, so each
value is that of its own rule, and the order of the rules only decides which failure is reported.
-/

namespace Symbolication.Cfi.RecoveryRules

open Postfix

section RegisterValues

variable (e : Evaluator) (registers : Registers)

theorem registerValues_cons (name expression : String) (rest : List (String × String)) :
    registerValues e registers ((name, expression) :: rest) =
      e.value registers expression >>= fun v =>
        registerValues e registers rest >>= fun values => .ok ((name, v) :: values) := rfl

theorem registerValues_cons_eq_ok_iff (name expression : String) (rest : List (String × String))
    (values : List (String × UInt64)) :
    registerValues e registers ((name, expression) :: rest) = .ok values ↔
      ∃ v others, e.value registers expression = .ok v ∧
        registerValues e registers rest = .ok others ∧ values = (name, v) :: others := by
  rw [registerValues_cons, bind_eq_ok_iff]
  constructor
  · rintro ⟨v, hv, h⟩
    obtain ⟨others, hothers, h⟩ := (bind_eq_ok_iff _ _ _).mp h
    cases h
    exact ⟨v, others, hv, hothers, rfl⟩
  · rintro ⟨v, others, hv, hothers, rfl⟩
    exact ⟨v, hv, (bind_eq_ok_iff _ _ _).mpr ⟨others, hothers, rfl⟩⟩

/-- All register rules have values exactly if each has one. -/
theorem exists_registerValues_iff (rules : List (String × String)) :
    (∃ values, registerValues e registers rules = .ok values) ↔
      ∀ rule ∈ rules, ∃ v, e.value registers rule.2 = .ok v := by
  induction rules with
  | nil => simp [registerValues]
  | cons rule rest ih =>
    obtain ⟨name, expression⟩ := rule
    simp only [registerValues_cons_eq_ok_iff, List.forall_mem_cons, ← ih]
    constructor
    · rintro ⟨values, v, others, hv, hothers, -⟩
      exact ⟨⟨v, hv⟩, ⟨others, hothers⟩⟩
    · rintro ⟨⟨v, hv⟩, ⟨others, hothers⟩⟩
      exact ⟨_, v, others, hv, hothers, rfl⟩

theorem map_fst_registerValues (rules : List (String × String)) (values : List (String × UInt64))
    (h : registerValues e registers rules = .ok values) :
    values.map Prod.fst = rules.map Prod.fst := by
  induction rules generalizing values with
  | nil =>
    cases h
    rfl
  | cons rule rest ih =>
    obtain ⟨v, others, -, hothers, rfl⟩ :=
      (registerValues_cons_eq_ok_iff e registers _ _ rest values).mp h
    rw [List.map_cons, List.map_cons, ih others hothers]

theorem mem_registerValues_iff (rules : List (String × String)) (values : List (String × UInt64))
    (h : registerValues e registers rules = .ok values) (name : String) (v : UInt64) :
    (name, v) ∈ values ↔
      ∃ expression, (name, expression) ∈ rules ∧ e.value registers expression = .ok v := by
  induction rules generalizing values with
  | nil =>
    cases h
    simp
  | cons rule rest ih =>
    obtain ⟨first, others, hfirst, hothers, rfl⟩ :=
      (registerValues_cons_eq_ok_iff e registers _ _ rest values).mp h
    simp only [List.mem_cons, ih others hothers]
    constructor
    · rintro (heq | ⟨expression, hmem, hv⟩)
      · cases heq
        exact ⟨rule.2, Or.inl rfl, hfirst⟩
      · exact ⟨expression, Or.inr hmem, hv⟩
    · rintro ⟨expression, rfl | hmem, hv⟩
      · rw [hfirst] at hv
        cases hv
        exact Or.inl rfl
      · exact Or.inr ⟨expression, hmem, hv⟩

/-- The rules fail with the failure of the first rule that fails. -/
theorem registerValues_eq_error_iff (rules : List (String × String)) (err : EvalError) :
    registerValues e registers rules = .error err ↔
      ∃ before name expression after, rules = before ++ (name, expression) :: after ∧
        e.value registers expression = .error err ∧
          ∀ rule ∈ before, ∃ v, e.value registers rule.2 = .ok v := by
  induction rules with
  | nil =>
    constructor
    · intro h
      cases h
    · rintro ⟨before, name, expression, after, h, -⟩
      simp at h
  | cons rule rest ih =>
    obtain ⟨name, expression⟩ := rule
    rw [registerValues_cons, bind_eq_error_iff]
    constructor
    · rintro (hfail | ⟨v, hv, h⟩)
      · exact ⟨[], name, expression, rest, rfl, hfail, fun _ hmem => absurd hmem List.not_mem_nil⟩
      · rcases (bind_eq_error_iff _ _ _).mp h with hrest | ⟨_, _, hok⟩
        · obtain ⟨before, failing, text, after, rfl, hfail, hbefore⟩ := ih.mp hrest
          refine ⟨(name, expression) :: before, failing, text, after, rfl, hfail, ?_⟩
          exact List.forall_mem_cons.mpr ⟨⟨v, hv⟩, hbefore⟩
        · cases hok
    · rintro ⟨before, failing, text, after, heq, hfail, hbefore⟩
      cases before with
      | nil =>
        cases heq
        exact Or.inl hfail
      | cons first before =>
        obtain ⟨rfl, rfl⟩ := List.cons.inj heq
        obtain ⟨⟨v, hv⟩, hbefore⟩ := List.forall_mem_cons.mp hbefore
        have hrest := ih.mpr ⟨before, failing, text, after, rfl, hfail, hbefore⟩
        exact Or.inr ⟨v, hv, (bind_eq_error_iff _ _ _).mpr (Or.inl hrest)⟩

end RegisterValues

variable (r : RecoveryRules) (e : Evaluator) (registers : Registers)

/-- Every rule has a value: the frame address `cfa` in the registers alone, the return address `ra`
and the registers with the frame address added. -/
structure Evaluate (cfa ra : UInt64) : Prop where
  frameAddress : ∃ rule, r.cfa = some rule ∧ e.value registers rule = .ok cfa
  returnAddress : ∃ rule, r.ra = some rule ∧
    e.value (registers.insert ".cfa" cfa) rule = .ok ra
  register (name rule : String) (h : r.register? name = some rule) :
    ∃ v, e.value (registers.insert ".cfa" cfa) rule = .ok v

/-- The failure that is found first, when the rules are looked at in the order frame address, return
address, registers by ascending name. -/
inductive FirstFailure : EvalError → Prop where
  | noFrameRule (h : r.cfa = none) : FirstFailure (.missingRule ".cfa")
  | noReturnRule (cfaRule : String) (hcfa : r.cfa = some cfaRule) (h : r.ra = none) :
    FirstFailure (.missingRule ".ra")
  | frameAddress (cfaRule raRule : String) (err : EvalError) (hcfa : r.cfa = some cfaRule)
    (hra : r.ra = some raRule) (h : e.value registers cfaRule = .error err) : FirstFailure err
  | returnAddress (cfaRule raRule : String) (cfa : UInt64) (err : EvalError)
    (hcfa : r.cfa = some cfaRule) (hra : r.ra = some raRule)
    (hvalue : e.value registers cfaRule = .ok cfa)
    (h : e.value (registers.insert ".cfa" cfa) raRule = .error err) : FirstFailure err
  | register (cfaRule raRule : String) (cfa ra : UInt64) (name rule : String) (err : EvalError)
    (hcfa : r.cfa = some cfaRule) (hra : r.ra = some raRule)
    (hvalue : e.value registers cfaRule = .ok cfa)
    (hreturn : e.value (registers.insert ".cfa" cfa) raRule = .ok ra)
    (hrule : r.register? name = some rule)
    (h : e.value (registers.insert ".cfa" cfa) rule = .error err)
    (hfirst : ∀ other text, other < name → r.register? other = some text →
      ∃ v, e.value (registers.insert ".cfa" cfa) text = .ok v) : FirstFailure err

theorem callerRegisters_of_cfa_eq_none (hcfa : r.cfa = none) :
    r.callerRegisters e registers = .error (.missingRule ".cfa") := by
  rw [callerRegisters, hcfa]
  rfl

theorem callerRegisters_of_ra_eq_none (cfaRule : String) (hcfa : r.cfa = some cfaRule)
    (hra : r.ra = none) : r.callerRegisters e registers = .error (.missingRule ".ra") := by
  rw [callerRegisters, hcfa, hra]
  rfl

/-- With both address rules there, the rules are evaluated one after the other. -/
theorem callerRegisters_eq (cfaRule raRule : String) (hcfa : r.cfa = some cfaRule)
    (hra : r.ra = some raRule) :
    r.callerRegisters e registers =
      e.value registers cfaRule >>= fun cfa =>
        e.value (registers.insert ".cfa" cfa) raRule >>= fun ra =>
          registerValues e (registers.insert ".cfa" cfa) r.registers.entries >>= fun recovered =>
            .ok (((OrderedMap.ofList recovered).insert ".cfa" cfa).insert ".ra" ra) := by
  unfold callerRegisters
  rw [hcfa, hra]
  rfl

/-- Without an address rule every recovery fails, in the same way. -/
theorem callerRegisters_congr (f : Evaluator) (others : Registers)
    (h : ∀ cfaRule raRule, r.cfa = some cfaRule → r.ra = some raRule →
      r.callerRegisters e registers = r.callerRegisters f others) :
    r.callerRegisters e registers = r.callerRegisters f others := by
  cases hcfa : r.cfa with
  | none => rw [r.callerRegisters_of_cfa_eq_none e _ hcfa, r.callerRegisters_of_cfa_eq_none f _ hcfa]
  | some cfaRule =>
    cases hra : r.ra with
    | none =>
      rw [r.callerRegisters_of_ra_eq_none e _ cfaRule hcfa hra,
        r.callerRegisters_of_ra_eq_none f _ cfaRule hcfa hra]
    | some raRule => exact h cfaRule raRule hcfa hra

theorem callerRegisters_eq_ok_iff (recovered : Registers) :
    r.callerRegisters e registers = .ok recovered ↔
      ∃ cfaRule raRule cfa ra values, r.cfa = some cfaRule ∧ r.ra = some raRule ∧
        e.value registers cfaRule = .ok cfa ∧
        e.value (registers.insert ".cfa" cfa) raRule = .ok ra ∧
        registerValues e (registers.insert ".cfa" cfa) r.registers.entries = .ok values ∧
        recovered = ((OrderedMap.ofList values).insert ".cfa" cfa).insert ".ra" ra := by
  constructor
  · intro h
    cases hcfa : r.cfa with
    | none =>
      rw [r.callerRegisters_of_cfa_eq_none e registers hcfa] at h
      cases h
    | some cfaRule =>
      cases hra : r.ra with
      | none =>
        rw [r.callerRegisters_of_ra_eq_none e registers cfaRule hcfa hra] at h
        cases h
      | some raRule =>
        rw [callerRegisters_eq r e registers cfaRule raRule hcfa hra] at h
        obtain ⟨cfa, hvalue, h⟩ := (bind_eq_ok_iff _ _ _).mp h
        obtain ⟨ra, hreturn, h⟩ := (bind_eq_ok_iff _ _ _).mp h
        obtain ⟨values, hvalues, h⟩ := (bind_eq_ok_iff _ _ _).mp h
        cases h
        exact ⟨cfaRule, raRule, cfa, ra, values, rfl, rfl, hvalue, hreturn, hvalues, rfl⟩
  · rintro ⟨cfaRule, raRule, cfa, ra, values, hcfa, hra, hvalue, hreturn, hvalues, rfl⟩
    rw [callerRegisters_eq r e registers cfaRule raRule hcfa hra, hvalue]
    refine (bind_eq_ok_iff _ _ _).mpr ⟨cfa, rfl, (bind_eq_ok_iff _ _ _).mpr ⟨ra, hreturn, ?_⟩⟩
    exact (bind_eq_ok_iff _ _ _).mpr ⟨values, hvalues, rfl⟩

theorem forall_register_iff (P : String → String → Prop) :
    (∀ name rule, r.register? name = some rule → P name rule) ↔
      ∀ rule ∈ r.registers.entries, P rule.1 rule.2 := by
  constructor
  · intro h rule hrule
    exact h rule.1 rule.2 (OrderedMap.get?_eq_some_iff.mpr hrule)
  · intro h name rule hrule
    exact h (name, rule) (OrderedMap.get?_eq_some_iff.mp hrule)

theorem exists_callerRegisters_iff :
    (∃ recovered, r.callerRegisters e registers = .ok recovered) ↔
      ∃ cfa ra, r.Evaluate e registers cfa ra := by
  have hregisters (working : Registers) :
      (∀ name rule, r.register? name = some rule → ∃ v, e.value working rule = .ok v) ↔
        ∃ values, registerValues e working r.registers.entries = .ok values := by
    rw [exists_registerValues_iff]
    exact r.forall_register_iff fun _ rule => ∃ v, e.value working rule = .ok v
  constructor
  · rintro ⟨recovered, h⟩
    obtain ⟨cfaRule, raRule, cfa, ra, values, hcfa, hra, hvalue, hreturn, hvalues, -⟩ :=
      (r.callerRegisters_eq_ok_iff e registers recovered).mp h
    exact ⟨cfa, ra, ⟨cfaRule, hcfa, hvalue⟩, ⟨raRule, hra, hreturn⟩,
      (hregisters _).mpr ⟨values, hvalues⟩⟩
  · rintro ⟨cfa, ra, ⟨cfaRule, hcfa, hvalue⟩, ⟨raRule, hra, hreturn⟩, hall⟩
    obtain ⟨values, hvalues⟩ := (hregisters _).mp hall
    exact ⟨_, (r.callerRegisters_eq_ok_iff e registers _).mpr
      ⟨cfaRule, raRule, cfa, ra, values, hcfa, hra, hvalue, hreturn, hvalues, rfl⟩⟩

/-- What is recovered under a name: the two addresses, and for any other name the value of its own
rule. -/
theorem get?_recovered (cfa ra : UInt64) (values : List (String × UInt64))
    (h : registerValues e (registers.insert ".cfa" cfa) r.registers.entries = .ok values)
    (name : String) :
    (((OrderedMap.ofList values).insert ".cfa" cfa).insert ".ra" ra).get? name =
      if name = ".cfa" then some cfa
      else if name = ".ra" then some ra
      else (r.register? name).bind fun rule =>
        (e.value (registers.insert ".cfa" cfa) rule).toOption := by
  have hkeys : (values.map Prod.fst).Nodup := by
    rw [map_fst_registerValues e _ _ values h]
    exact r.registers.nodup_keys
  have hvalue : (OrderedMap.ofList values).get? name = (r.register? name).bind fun rule =>
      (e.value (registers.insert ".cfa" cfa) rule).toOption := by
    apply Option.ext
    intro v
    rw [OrderedMap.get?_ofList_eq_some_iff values hkeys,
      mem_registerValues_iff e _ _ values h, Option.bind_eq_some_iff]
    apply exists_congr
    intro rule
    rw [register?, OrderedMap.get?_eq_some_iff]
    apply and_congr_right
    intro _
    cases e.value (registers.insert ".cfa" cfa) rule <;> simp [Except.toOption]
  rw [OrderedMap.get?_insert, OrderedMap.get?_insert, hvalue]
  by_cases hcfa : name = ".cfa"
  · simp [hcfa]
  · simp [hcfa]

theorem exists_value_of_registerValues (cfa : UInt64) (values : List (String × UInt64))
    (h : registerValues e (registers.insert ".cfa" cfa) r.registers.entries = .ok values)
    (name rule : String) (hrule : r.register? name = some rule) :
    ∃ v, e.value (registers.insert ".cfa" cfa) rule = .ok v := by
  have hall := (exists_registerValues_iff e _ _).mp ⟨values, h⟩
  exact hall (name, rule) (OrderedMap.get?_eq_some_iff.mp hrule)

theorem mem_keys_recovered_iff (cfa ra : UInt64) (values : List (String × UInt64))
    (h : registerValues e (registers.insert ".cfa" cfa) r.registers.entries = .ok values)
    (name : String) :
    name ∈ (((OrderedMap.ofList values).insert ".cfa" cfa).insert ".ra" ra).keys ↔
      name = ".cfa" ∨ name = ".ra" ∨ (r.register? name).isSome := by
  rw [OrderedMap.mem_keys_iff, OrderedMap.contains_eq, r.get?_recovered e registers cfa ra values h]
  by_cases hnameCfa : name = ".cfa"
  · simp [hnameCfa]
  by_cases hnameRa : name = ".ra"
  · simp [hnameRa]
  rw [if_neg hnameCfa, if_neg hnameRa]
  cases hrule : r.register? name with
  | none => simp [hnameCfa, hnameRa]
  | some rule =>
    obtain ⟨v, hv⟩ := r.exists_value_of_registerValues e registers cfa values h name rule hrule
    simp [hv, Except.toOption]

theorem lt_iff_compare (a b : String) : a < b ↔ compare a b = .lt :=
  compareOfLessAndEq_eq_lt.symm

/-- The first of the register rules to fail is the failing one with the least name. -/
theorem registerValues_entries_eq_error_iff (working : Registers) (err : EvalError) :
    registerValues e working r.registers.entries = .error err ↔
      ∃ name rule, r.register? name = some rule ∧ e.value working rule = .error err ∧
        ∀ other text, other < name → r.register? other = some text →
          ∃ v, e.value working text = .ok v := by
  rw [registerValues_eq_error_iff]
  have hascending := r.registers.ascending
  constructor
  · rintro ⟨before, name, rule, after, heq, hfail, hbefore⟩
    rw [heq] at hascending
    obtain ⟨-, hafter, -⟩ := List.pairwise_append.mp hascending
    have hmem : (name, rule) ∈ r.registers.entries := by
      rw [heq]
      exact List.mem_append_right _ List.mem_cons_self
    refine ⟨name, rule, OrderedMap.get?_eq_some_iff.mpr hmem, hfail, ?_⟩
    intro other text hlt hother
    have hotherMem := OrderedMap.get?_eq_some_iff.mp hother
    rw [heq] at hotherMem
    rcases List.mem_append.mp hotherMem with hbeforeMem | hrest
    · exact hbefore (other, text) hbeforeMem
    · -- From `name` on no name is smaller than `name`.
      rw [lt_iff_compare] at hlt
      rcases List.mem_cons.mp hrest with hsame | hlater
      · cases hsame
        simp [Std.ReflCmp.compare_self] at hlt
      · have hgt := (List.pairwise_cons.mp hafter).1 (other, text) hlater
        exact absurd hgt (Std.OrientedCmp.not_lt_of_lt hlt)
  · rintro ⟨name, rule, hrule, hfail, hfirst⟩
    obtain ⟨before, after, heq⟩ := List.append_of_mem (OrderedMap.get?_eq_some_iff.mp hrule)
    refine ⟨before, name, rule, after, heq, hfail, ?_⟩
    intro p hp
    rw [heq] at hascending
    have hlt := (List.pairwise_append.mp hascending).2.2 p hp (name, rule) List.mem_cons_self
    have hmem : p ∈ r.registers.entries := by
      rw [heq]
      exact List.mem_append_left _ hp
    exact hfirst p.1 p.2 ((lt_iff_compare _ _).mpr hlt) (OrderedMap.get?_eq_some_iff.mpr hmem)

theorem callerRegisters_eq_error_iff (err : EvalError) :
    r.callerRegisters e registers = .error err ↔ r.FirstFailure e registers err := by
  constructor
  · intro h
    cases hcfa : r.cfa with
    | none =>
      rw [r.callerRegisters_of_cfa_eq_none e registers hcfa] at h
      cases h
      exact .noFrameRule hcfa
    | some cfaRule =>
      cases hra : r.ra with
      | none =>
        rw [r.callerRegisters_of_ra_eq_none e registers cfaRule hcfa hra] at h
        cases h
        exact .noReturnRule cfaRule hcfa hra
      | some raRule =>
        rw [callerRegisters_eq r e registers cfaRule raRule hcfa hra] at h
        -- Each bind fails at once or lets its value through to the next.
        rcases (bind_eq_error_iff _ _ _).mp h with h | ⟨cfa, hvalue, h⟩
        · exact .frameAddress cfaRule raRule err hcfa hra h
        rcases (bind_eq_error_iff _ _ _).mp h with h | ⟨ra, hreturn, h⟩
        · exact .returnAddress cfaRule raRule cfa err hcfa hra hvalue h
        rcases (bind_eq_error_iff _ _ _).mp h with h | ⟨_, _, hok⟩
        · obtain ⟨name, rule, hrule, hfail, hfirst⟩ :=
            (r.registerValues_entries_eq_error_iff e _ err).mp h
          exact .register cfaRule raRule cfa ra name rule err hcfa hra hvalue hreturn hrule hfail
            hfirst
        · cases hok
  · intro h
    cases h with
    | noFrameRule hcfa => exact r.callerRegisters_of_cfa_eq_none e registers hcfa
    | noReturnRule cfaRule hcfa hra =>
      exact r.callerRegisters_of_ra_eq_none e registers cfaRule hcfa hra
    | frameAddress cfaRule raRule _ hcfa hra hfail =>
      rw [callerRegisters_eq r e registers cfaRule raRule hcfa hra, hfail]
      rfl
    | returnAddress cfaRule raRule cfa _ hcfa hra hvalue hfail =>
      rw [callerRegisters_eq r e registers cfaRule raRule hcfa hra, hvalue]
      exact (bind_eq_error_iff _ _ _).mpr (Or.inr ⟨cfa, rfl,
        (bind_eq_error_iff _ _ _).mpr (Or.inl hfail)⟩)
    | register cfaRule raRule cfa ra name rule _ hcfa hra hvalue hreturn hrule hfail hfirst =>
      have hvalues := (r.registerValues_entries_eq_error_iff e _ err).mpr
        ⟨name, rule, hrule, hfail, hfirst⟩
      rw [callerRegisters_eq r e registers cfaRule raRule hcfa hra, hvalue]
      refine (bind_eq_error_iff _ _ _).mpr (Or.inr ⟨cfa, rfl, ?_⟩)
      refine (bind_eq_error_iff _ _ _).mpr (Or.inr ⟨ra, hreturn, ?_⟩)
      exact (bind_eq_error_iff _ _ _).mpr (Or.inl hvalues)

/-- Recovery succeeds exactly if every rule has a value where it is evaluated. It then yields the two
addresses and, under the name of each register rule, the value of that rule and no other; a register
rule stored under the name of an address gives way. Otherwise it reports the first failure. -/
theorem callerRegisters_values_or_first_failure :
    ((∃ recovered, r.callerRegisters e registers = .ok recovered) ↔
      ∃ cfa ra, r.Evaluate e registers cfa ra) ∧
    (∀ recovered, r.callerRegisters e registers = .ok recovered →
      ∃ cfa ra, r.Evaluate e registers cfa ra ∧
        (∀ name, name ∈ recovered.keys ↔
          name = ".cfa" ∨ name = ".ra" ∨ (r.register? name).isSome) ∧
        recovered.get? ".cfa" = some cfa ∧ recovered.get? ".ra" = some ra ∧
        ∀ name rule, name ≠ ".cfa" → name ≠ ".ra" → r.register? name = some rule →
          ∃ v, e.value (registers.insert ".cfa" cfa) rule = .ok v ∧
            recovered.get? name = some v) ∧
    (∀ err, r.callerRegisters e registers = .error err ↔ r.FirstFailure e registers err) := by
  refine ⟨r.exists_callerRegisters_iff e registers, ?_, r.callerRegisters_eq_error_iff e registers⟩
  intro recovered h
  obtain ⟨cfaRule, raRule, cfa, ra, values, hcfa, hra, hvalue, hreturn, hvalues, rfl⟩ :=
    (r.callerRegisters_eq_ok_iff e registers recovered).mp h
  have hall := r.exists_value_of_registerValues e registers cfa values hvalues
  have hget := r.get?_recovered e registers cfa ra values hvalues
  refine ⟨cfa, ra, ⟨⟨cfaRule, hcfa, hvalue⟩, ⟨raRule, hra, hreturn⟩, hall⟩, ?_, ?_, ?_, ?_⟩
  · exact r.mem_keys_recovered_iff e registers cfa ra values hvalues
  · exact (hget ".cfa").trans (if_pos rfl)
  · exact (hget ".ra").trans (by simp)
  · intro name rule hnameCfa hnameRa hrule
    obtain ⟨v, hv⟩ := hall name rule hrule
    refine ⟨v, hv, ?_⟩
    rw [hget, if_neg hnameCfa, if_neg hnameRa, hrule, Option.bind_some, hv]
    rfl

end Symbolication.Cfi.RecoveryRules
