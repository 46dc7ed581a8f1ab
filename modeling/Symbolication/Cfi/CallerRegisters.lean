import Symbolication.Cfi.RecoveryRules
import Symbolication.Postfix.Evaluator

/-!
The registers of a frame's caller, from the registers of the frame and its recovery rules. The frame
address comes first, from the frame's registers alone; every other rule may refer to it, and to no
other recovered value.
-/

namespace Symbolication.Cfi

open Postfix

namespace RecoveryRules

/-- The value of each register rule, by ascending name; the first failure stops. -/
def registerValues (e : Evaluator) (registers : Registers) :
    List (String × String) → Except EvalError (List (String × UInt64))
  | [] => .ok []
  | (name, expression) :: rest => do
    let v ← e.value registers expression
    return (name, v) :: (← registerValues e registers rest)

/-- The registers of the caller: the frame address, the return address, and those with a rule. -/
def callerRegisters (r : RecoveryRules) (e : Evaluator) (registers : Registers) :
    Except EvalError Registers := do
  let some cfaRule := r.cfa | throw (.missingRule ".cfa")
  let some raRule := r.ra | throw (.missingRule ".ra")
  -- The rule for the frame address is evaluated in the registers of the frame alone.
  let cfa ← e.value registers cfaRule
  let working := registers.insert ".cfa" cfa
  let ra ← e.value working raRule
  let recovered ← registerValues e working r.registers.entries
  -- The two addresses come last: a register rule stored under one of their names gives way.
  return ((OrderedMap.ofList recovered).insert ".cfa" cfa).insert ".ra" ra

end RecoveryRules

end Symbolication.Cfi
