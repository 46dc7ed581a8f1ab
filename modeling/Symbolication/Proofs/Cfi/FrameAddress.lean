import Mathlib.Control.Monad.Basic
import Symbolication.Proofs.Cfi.CallerRegisters
import Symbolication.Proofs.OrderedMap.Insertion
import Symbolication.Proofs.Postfix.Unbound

/-!
The frame address of the callee. Recovery puts the frame address among the registers of the caller,
and from there the rule for the next frame address can read it. All other rules see the new frame
address only, so recovery depends on the old one through that rule alone.
-/

namespace Symbolication

namespace Cfi.RecoveryRules

open Postfix

/-- Register rules never fail for want of a register that is there. -/
theorem registerValues_ne_unknownIdentifier (e : Evaluator) (registers : Registers) (name : String)
    (h : (registers.get? name).isSome = true) (rules : List (String × String)) :
    registerValues e registers rules ≠ .error (.unknownIdentifier name) := by
  intro herror
  obtain ⟨-, -, expression, -, -, hfail, -⟩ := (registerValues_eq_error_iff e registers rules _).mp herror
  exact e.value_ne_unknownIdentifier registers name expression (fun _ => h) hfail

variable (r : RecoveryRules) (e : Evaluator) (registers : Registers)

/-- Recovery once the frame address is known. -/
def recoverWith (raRule : String) (cfa : UInt64) : Except EvalError Registers :=
  e.value (registers.insert ".cfa" cfa) raRule >>= fun ra =>
    registerValues e (registers.insert ".cfa" cfa) r.registers.entries >>= fun recovered =>
      .ok (((OrderedMap.ofList recovered).insert ".cfa" cfa).insert ".ra" ra)

theorem recoverWith_erase (raRule : String) (cfa : UInt64) :
    r.recoverWith e (registers.erase ".cfa") raRule cfa = r.recoverWith e registers raRule cfa := by
  unfold recoverWith
  rw [OrderedMap.insert_erase]

/-- With the frame address at hand no rule misses it. -/
theorem recoverWith_ne_unknownIdentifier (raRule : String) (cfa : UInt64) :
    r.recoverWith e registers raRule cfa ≠ .error (.unknownIdentifier ".cfa") := by
  have hthere : ((registers.insert ".cfa" cfa).get? ".cfa").isSome = true := by
    rw [OrderedMap.get?_insert, if_pos rfl]
    rfl
  intro herror
  rcases (bind_eq_error_iff _ _ _).mp herror with hra | ⟨ra, -, herror⟩
  · exact e.value_ne_unknownIdentifier _ ".cfa" raRule (fun _ => hthere) hra
  rcases (bind_eq_error_iff _ _ _).mp herror with hregisters | ⟨values, -, hok⟩
  · exact registerValues_ne_unknownIdentifier e _ ".cfa" hthere _ hregisters
  · cases hok

/-- The old frame address makes a difference exactly if it is there and the rule for the new one asks
for it. -/
theorem callerRegisters_erase_eq_iff (cfaRule raRule : String) (hcfa : r.cfa = some cfaRule)
    (hra : r.ra = some raRule) :
    r.callerRegisters e registers = r.callerRegisters e (registers.erase ".cfa") ↔
      registers.get? ".cfa" = none ∨
        e.value (registers.erase ".cfa") cfaRule ≠ .error (.unknownIdentifier ".cfa") := by
  have hrecover (registers : Registers) : r.callerRegisters e registers =
      e.value registers cfaRule >>= r.recoverWith e registers raRule :=
    callerRegisters_eq r e registers cfaRule raRule hcfa hra
  have hrest : r.recoverWith e (registers.erase ".cfa") raRule = r.recoverWith e registers raRule :=
    funext (r.recoverWith_erase e registers raRule)
  rw [hrecover, hrecover, hrest]
  constructor
  · intro hsame
    by_cases hthere : registers.get? ".cfa" = none
    · exact Or.inl hthere
    · have hsome : (registers.get? ".cfa").isSome = true := Option.isSome_iff_ne_none.mpr hthere
      refine Or.inr fun hmissed => ?_
      -- Without the address recovery ends here, and with it no rule can fail in this way.
      rw [hmissed] at hsame
      rcases (bind_eq_error_iff _ _ _).mp hsame with hvalue | ⟨cfa, -, herror⟩
      · exact e.value_ne_unknownIdentifier registers ".cfa" cfaRule (fun _ => hsome) hvalue
      · exact r.recoverWith_ne_unknownIdentifier e registers raRule cfa herror
  · intro h
    rcases h with hnone | hne
    · rw [OrderedMap.erase_of_get?_eq_none registers ".cfa" hnone]
    · rw [(e.sameUnless_value registers ".cfa" cfaRule).resolve_left hne]

/-- Recovery is the same with and without the callee's frame address, except where that address is
there and the rule for the new one asks for it. A rule that does not mention it does not ask; with a
rule that does mention it there is no recovery without it. -/
theorem callee_frame_address_matters_iff :
    (r.callerRegisters e registers = r.callerRegisters e (registers.erase ".cfa") ↔
      registers.get? ".cfa" = none ∨ ∀ cfaRule raRule, r.cfa = some cfaRule → r.ra = some raRule →
        e.value (registers.erase ".cfa") cfaRule ≠ .error (.unknownIdentifier ".cfa")) ∧
    ∀ cfaRule, r.cfa = some cfaRule →
      (.identifier ".cfa" ∉ tokens cfaRule →
        r.callerRegisters e registers = r.callerRegisters e (registers.erase ".cfa")) ∧
      (.identifier ".cfa" ∈ tokens cfaRule →
        ∀ recovered, r.callerRegisters e (registers.erase ".cfa") ≠ .ok recovered) := by
  have hiff : r.callerRegisters e registers = r.callerRegisters e (registers.erase ".cfa") ↔
      registers.get? ".cfa" = none ∨ ∀ cfaRule raRule, r.cfa = some cfaRule → r.ra = some raRule →
        e.value (registers.erase ".cfa") cfaRule ≠ .error (.unknownIdentifier ".cfa") := by
    cases hcfa : r.cfa with
    | none =>
      rw [r.callerRegisters_of_cfa_eq_none e _ hcfa, r.callerRegisters_of_cfa_eq_none e _ hcfa]
      exact iff_of_true rfl (Or.inr nofun)
    | some cfaRule =>
      cases hra : r.ra with
      | none =>
        rw [r.callerRegisters_of_ra_eq_none e _ cfaRule hcfa hra,
          r.callerRegisters_of_ra_eq_none e _ cfaRule hcfa hra]
        exact iff_of_true rfl (Or.inr nofun)
      | some raRule =>
        rw [r.callerRegisters_erase_eq_iff e registers cfaRule raRule hcfa hra]
        simp
  refine ⟨hiff, ?_⟩
  intro cfaRule hcfa
  constructor
  · intro hmention
    refine hiff.mpr (Or.inr ?_)
    intro other raRule hother _
    rw [← Option.some.inj (hcfa.symm.trans hother)]
    exact e.value_ne_unknownIdentifier _ ".cfa" cfaRule fun h => absurd h hmention
  · intro hmention recovered hrecovered
    obtain ⟨other, -, cfa, -, -, hother, -, hvalue, -⟩ :=
      (r.callerRegisters_eq_ok_iff e _ recovered).mp hrecovered
    rw [← Option.some.inj (hcfa.symm.trans hother)] at hvalue
    have hunbound : OrderedMap.get? (registers.erase ".cfa") ".cfa" = none := by
      rw [OrderedMap.get?_erase, if_pos rfl]
    exact e.value_ne_ok_of_unbound _ ".cfa" hunbound cfaRule hmention cfa hvalue

/-- The rule for the frame address goes on from the frame address that the last recovery left. -/
theorem recovered_frame_address_is_read :
    let e : Evaluator := { memory := .none }
    let first : RecoveryRules := { cfa := some "$sp 8 +", ra := some "0" }
    let second : RecoveryRules := { cfa := some ".cfa 8 +", ra := some "0" }
    let recovered : Registers := .ofList [(".cfa", 0x1000), (".ra", 0)]
    first.callerRegisters e (.ofList [("$sp", 0xff8)]) = .ok recovered ∧
    second.callerRegisters e recovered = .ok (.ofList [(".cfa", 0x1008), (".ra", 0)]) ∧
    second.callerRegisters e (recovered.erase ".cfa") = .error (.unknownIdentifier ".cfa") := by
  decide +kernel

end Cfi.RecoveryRules

end Symbolication
