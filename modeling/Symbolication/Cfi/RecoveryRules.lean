import Symbolication.OrderedMap.Basic
import Symbolication.Cfi.RuleSet

/-!
The rules in effect at one instruction. Rule sets are applied on top of each other: the last rule
for a target is the one that counts.
-/

namespace Symbolication.Cfi

/-- Recovery rules for the frame address, the return address and the caller's registers. -/
structure RecoveryRules where
  cfa : Option String := none
  ra : Option String := none
  registers : OrderedMap String String := ∅
  deriving DecidableEq

namespace RecoveryRules

def empty : RecoveryRules := {}

instance : EmptyCollection RecoveryRules := ⟨empty⟩
instance : Inhabited RecoveryRules := ⟨empty⟩

def isEmpty (r : RecoveryRules) : Bool :=
  r.cfa.isNone && r.ra.isNone && r.registers.isEmpty

def register? (r : RecoveryRules) (name : String) : Option String := r.registers.get? name

def set (r : RecoveryRules) (target : Target) (expression : String) : RecoveryRules :=
  match target with
  | .cfa => { r with cfa := some expression }
  | .ra => { r with ra := some expression }
  | .register name => { r with registers := r.registers.insert name expression }

def apply (r : RecoveryRules) (rule : Rule) : RecoveryRules := r.set rule.target rule.expression

def applyAll (r : RecoveryRules) (rules : List Rule) : RecoveryRules := rules.foldl apply r

/-- Applies every rule that a rule set delivers, also when it is refused part way. -/
def applyRuleSet (r : RecoveryRules) (ruleSet : String) : RecoveryRules :=
  r.applyAll (deliver ruleSet).rules

/-- The rules with their names: frame address, return address, then registers by name. -/
def toList (r : RecoveryRules) : List (String × String) :=
  (r.cfa.map (".cfa", ·)).toList ++ (r.ra.map (".ra", ·)).toList ++ r.registers.entries

def text (r : RecoveryRules) : String :=
  " ".intercalate (r.toList.map fun (name, expression) => name ++ ": " ++ expression)

instance : ToString RecoveryRules := ⟨text⟩

end RecoveryRules

end Symbolication.Cfi
