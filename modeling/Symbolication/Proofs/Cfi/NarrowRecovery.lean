import Mathlib.Control.Monad.Basic
import Symbolication.Proofs.Cfi.CallerRegisters
import Symbolication.Proofs.Postfix.NarrowWords

/-!
Recovery on 32-bit words. Each rule is an expression, evaluated in registers that agree if the callee's
do, so recovery too sees only low halves and the low part of memory.
-/

namespace Symbolication.Cfi.RecoveryRules

open Postfix

/-- The addresses that register rules pass to memory, up to the rule that fails. -/
def registerAddresses (e : Evaluator) (registers : Registers) : List (String × String) → List UInt64
  | [] => []
  | (_, expression) :: rest =>
    e.addresses registers [] (tokens expression) ++
      match e.value registers expression with
      | .ok _ => registerAddresses e registers rest
      | .error _ => []

/-- The addresses that recovery passes to memory, rule by rule, up to its end or to the rule that
fails. -/
def addresses (r : RecoveryRules) (e : Evaluator) (registers : Registers) : List UInt64 :=
  match r.cfa, r.ra with
  | some cfaRule, some raRule =>
    e.addresses registers [] (tokens cfaRule) ++
      match e.value registers cfaRule with
      | .ok cfa =>
        e.addresses (registers.insert ".cfa" cfa) [] (tokens raRule) ++
          match e.value (registers.insert ".cfa" cfa) raRule with
          | .ok _ => registerAddresses e (registers.insert ".cfa" cfa) r.registers.entries
          | .error _ => []
      | .error _ => []
  | _, _ => []

section OtherMemory

variable (e : Evaluator) (m : Memory) (registers : Registers)

theorem registerValues_onMemory (rules : List (String × String))
    (h : ∀ address ∈ registerAddresses e registers rules,
      (e.onMemory m).readWord? address = e.readWord? address) :
    registerValues (e.onMemory m) registers rules = registerValues e registers rules := by
  induction rules with
  | nil => rfl
  | cons rule rest ih =>
    obtain ⟨name, expression⟩ := rule
    obtain ⟨hvalue, hrest⟩ := List.forall_mem_append.mp h
    rw [registerValues_cons, registerValues_cons, e.value_onMemory m registers expression hvalue]
    apply bind_congr_of_ok
    intro v hv
    rw [hv] at hrest
    rw [ih hrest]

/-- Recovery is the same on a memory with the same words at the addresses it reads. -/
theorem callerRegisters_onMemory (r : RecoveryRules)
    (h : ∀ address ∈ r.addresses e registers,
      (e.onMemory m).readWord? address = e.readWord? address) :
    r.callerRegisters (e.onMemory m) registers = r.callerRegisters e registers := by
  apply r.callerRegisters_congr
  intro cfaRule raRule hcfa hra
  rw [addresses, hcfa, hra] at h
  obtain ⟨hframe, hrest⟩ := List.forall_mem_append.mp h
  rw [r.callerRegisters_eq _ _ cfaRule raRule hcfa hra,
    r.callerRegisters_eq _ _ cfaRule raRule hcfa hra, e.value_onMemory m registers cfaRule hframe]
  apply bind_congr_of_ok
  intro cfa hcfa
  rw [hcfa] at hrest
  obtain ⟨hreturn, hrules⟩ := List.forall_mem_append.mp hrest
  rw [e.value_onMemory m _ raRule hreturn]
  apply bind_congr_of_ok
  intro ra hra
  rw [hra] at hrules
  rw [registerValues_onMemory e m _ _ hrules]

end OtherMemory

section Bounds

variable (e : Evaluator) (registers : Registers)

theorem registerAddresses_lt (rules : List (String × String)) :
    ∀ address ∈ registerAddresses e registers rules, address.toNat < e.width.modulus := by
  induction rules with
  | nil => exact fun _ h => absurd h List.not_mem_nil
  | cons rule rest ih =>
    obtain ⟨name, expression⟩ := rule
    rw [registerAddresses]
    refine List.forall_mem_append.mpr ⟨e.addresses_lt registers [] _, ?_⟩
    cases e.value registers expression with
    | ok v => exact ih
    | error err => exact fun _ h => absurd h List.not_mem_nil

theorem addresses_lt (r : RecoveryRules) :
    ∀ address ∈ r.addresses e registers, address.toNat < e.width.modulus := by
  have hnone : ∀ address ∈ ([] : List UInt64), address.toNat < e.width.modulus :=
    fun _ h => absurd h List.not_mem_nil
  unfold addresses
  split
  · refine List.forall_mem_append.mpr ⟨e.addresses_lt registers [] _, ?_⟩
    split
    · refine List.forall_mem_append.mpr ⟨e.addresses_lt _ [] _, ?_⟩
      split
      · exact registerAddresses_lt e _ _
      · exact hnone
    · exact hnone
  · exact hnone

/-- Every recovered value is a word of the evaluator's width. -/
theorem recovered_lt (r : RecoveryRules) (recovered : Registers)
    (h : r.callerRegisters e registers = .ok recovered) (name : String) (v : UInt64)
    (hv : recovered.get? name = some v) : v.toNat < e.width.modulus := by
  obtain ⟨cfaRule, raRule, cfa, ra, values, -, -, hvalue, hreturn, hvalues, rfl⟩ :=
    (r.callerRegisters_eq_ok_iff e registers recovered).mp h
  rw [r.get?_recovered e registers cfa ra values hvalues] at hv
  split at hv
  · obtain rfl := Option.some.inj hv
    exact e.value_lt cfaRule cfa hvalue
  split at hv
  · obtain rfl := Option.some.inj hv
    exact e.value_lt raRule ra hreturn
  obtain ⟨rule, hrule, hv⟩ := Option.bind_eq_some_iff.mp hv
  obtain ⟨u, hu⟩ := r.exists_value_of_registerValues e registers cfa values hvalues name rule hrule
  rw [hu] at hv
  obtain rfl := Option.some.inj hv
  exact e.value_lt rule u hu

end Bounds

section Narrow

variable (e : Evaluator) (he : e.width = .bits32)

include he

theorem callerRegisters_of_sameLowPart (r : RecoveryRules) (registers : Registers) (m : Memory)
    (hmemory : e.memory.SameLowPart m) :
    r.callerRegisters (e.onMemory m) registers = r.callerRegisters e registers := by
  apply callerRegisters_onMemory
  intro address haddress
  have hlt := addresses_lt e registers r address haddress
  exact e.readWord?_onMemory he m hmemory address hlt

variable {registers others : Registers} (hregisters : SameLowHalves registers others)

include hregisters

theorem registerValues_narrow (rules : List (String × String)) :
    registerValues e registers rules = registerValues e others rules := by
  induction rules with
  | nil => rfl
  | cons rule rest ih =>
    obtain ⟨name, expression⟩ := rule
    rw [registerValues_cons, registerValues_cons, e.value_narrow he hregisters, ih]

theorem callerRegisters_narrow (r : RecoveryRules) :
    r.callerRegisters e registers = r.callerRegisters e others := by
  apply r.callerRegisters_congr
  intro cfaRule raRule hcfa hra
  rw [r.callerRegisters_eq e _ cfaRule raRule hcfa hra,
    r.callerRegisters_eq e _ cfaRule raRule hcfa hra, e.value_narrow he hregisters]
  apply bind_congr
  intro cfa
  -- From here on both recoveries have the same frame address in their registers.
  have hworking := hregisters.insert ".cfa" cfa
  rw [e.value_narrow he hworking, registerValues_narrow e he hworking]

end Narrow

/-- With a pointer size of four bytes, two runs whose registers have the same names and equal values
modulo `2 ^ 32`, on memories with the same words below `2 ^ 32`, give the same value or failure, the same
end of a program and the same recovered registers; a program leaves registers that are again equal
modulo `2 ^ 32`. All values, assigned values and addresses passed to memory are below `2 ^ 32`, and the
assigned values account for all that becomes of the registers. -/
theorem narrow_runs_see_low_halves (m n : Memory) (hmemory : m.SameLowPart n)
    (registers others : Registers) (hregisters : SameLowHalves registers others) :
    let e : Evaluator := { memory := m, width := .ofPointerSize 4 }
    let f : Evaluator := { memory := n, width := .ofPointerSize 4 }
    (∀ expression, e.value registers expression = f.value others expression ∧
      (∀ v, e.value registers expression = .ok v → v.toNat < UInt32.size) ∧
      ∀ address ∈ e.addresses registers [] (tokens expression), address.toNat < UInt32.size) ∧
    (∀ program, (e.run registers program).2 = (f.run others program).2 ∧
      SameLowHalves (e.run registers program).1 (f.run others program).1 ∧
      (e.run registers program).1 =
        (e.effects registers [] (tokens program)).foldl Effect.perform registers ∧
      ∀ effect ∈ e.effects registers [] (tokens program), effect.word.toNat < UInt32.size) ∧
    ∀ r : RecoveryRules, r.callerRegisters e registers = r.callerRegisters f others ∧
      (∀ recovered, r.callerRegisters e registers = .ok recovered →
        ∀ name v, recovered.get? name = some v → v.toNat < UInt32.size) ∧
      ∀ address ∈ r.addresses e registers, address.toNat < UInt32.size := by
  intro e f
  have he : e.width = .bits32 := rfl
  have hf : f.width = .bits32 := rfl
  -- The two runs differ in memory and in registers: between them is one on the memory of the second.
  refine ⟨?_, ?_, ?_⟩
  · intro expression
    have hsame : e.value registers expression = f.value others expression := by
      calc e.value registers expression
          = f.value registers expression :=
            (e.value_of_sameLowPart he registers n hmemory expression).symm
        _ = f.value others expression := f.value_narrow hf hregisters expression
    exact ⟨hsame, e.value_lt expression, e.addresses_lt registers [] _⟩
  · intro program
    have hrun : e.run registers program = f.run registers program :=
      (e.runProgram_of_sameLowPart he registers n hmemory (tokens program)).symm
    obtain ⟨hend, hleft⟩ := f.runProgram_narrow hf hregisters [] (tokens program)
    refine ⟨?_, ?_, e.runProgram_registers registers [] _, e.effects_lt registers [] _⟩
    · rw [hrun]
      exact hend
    · rw [hrun]
      exact hleft
  · intro r
    have hsame : r.callerRegisters e registers = r.callerRegisters f others := by
      calc r.callerRegisters e registers
          = r.callerRegisters f registers :=
            (callerRegisters_of_sameLowPart e he r registers n hmemory).symm
        _ = r.callerRegisters f others := callerRegisters_narrow f hf hregisters r
    exact ⟨hsame, recovered_lt e registers r, addresses_lt e registers r⟩

/-- Two processes that differ above `2 ^ 32` only, in a register and in memory. -/
theorem narrow_runs_of_different_processes :
    let m : Memory := .ofRead64 fun a => if a = 0x1008 then some 0x500000007 else none
    let n : Memory := .ofRead64 fun a =>
      if a = 0x1008 then some 7 else if a = 0x200001008 then some 9 else none
    let e : Evaluator := { memory := m, width := .ofPointerSize 4 }
    let f : Evaluator := { memory := n, width := .ofPointerSize 4 }
    let registers : Registers := .ofList [("$esp", 0x1000)]
    let others : Registers := .ofList [("$esp", 0x200001000)]
    let program := "$eip $esp 8 + ^ = $esp 0 4 - ="
    let r : RecoveryRules := { cfa := some "$esp 8 +", ra := some ".cfa ^ 0x100000001 +" }
    m.SameLowPart n ∧ SameLowHalves registers others ∧
    (f.run others program).2 = none ∧
    e.effects registers [] (tokens program) =
      [.read 0x1008, .store "$eip" 7, .store "$esp" 0xFFFFFFFC] ∧
    (f.run others program).1.get? "$esp" = some 0xFFFFFFFC ∧
    r.addresses e registers = [0x1008] ∧
    r.callerRegisters f others = .ok (.ofList [(".cfa", 0x1008), (".ra", 8)]) := by
  intro m n e f registers others program r
  have hmemory : m.SameLowPart n := by
    intro address h
    have hne : address ≠ 0x200001008 := by
      rintro rfl
      revert h
      decide
    simp only [m, n, Memory.ofRead64]
    rw [if_neg hne]
    split <;> rfl
  have hregisters : SameLowHalves registers others := by
    intro name
    have hget (v : UInt64) : (OrderedMap.ofList [("$esp", v)] : Registers).get? name =
        if name = "$esp" then some v else none := by
      simp only [OrderedMap.ofList, List.foldl_cons, List.foldl_nil, OrderedMap.get?_insert]
      rfl
    simp only [registers, others, hget]
    split <;> rfl
  obtain ⟨-, hprogram, hrecovery⟩ :=
    narrow_runs_see_low_halves m n hmemory registers others hregisters
  obtain ⟨hend, hleft, -⟩ := hprogram program
  obtain ⟨hsame, -⟩ := hrecovery r
  refine ⟨hmemory, hregisters, ?_, by decide +kernel, by decide +kernel, by decide +kernel, ?_⟩
  · exact hend.symm.trans (by decide +kernel)
  · exact hsame.symm.trans (by decide +kernel)

end Symbolication.Cfi.RecoveryRules
