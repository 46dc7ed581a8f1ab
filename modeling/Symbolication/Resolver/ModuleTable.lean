import Symbolication.OrderedMap.Basic
import Symbolication.Text.Quoted

/-!
The modules of a resolver by code file. A code file has at most one module, and the one it has is
never replaced: it has to be removed first.
-/

namespace Symbolication

abbrev ModuleTable (μ : Type) := OrderedMap String μ

namespace ModuleTable

variable {μ : Type}

/-- The table with `m` under `key`, or `none` if the key is taken. -/
def add? (t : ModuleTable μ) (key : String) (m : μ) : Option (ModuleTable μ) :=
  if t.contains key then none else some (t.insert key m)

/-- The module under `key`, and the table without it. -/
def take (t : ModuleTable μ) (key : String) : Option μ × ModuleTable μ := (t.get? key, t.erase key)

/-- A table is shown by its keys. -/
def describe (t : ModuleTable μ) : String :=
  "\x7b" ++ ", ".intercalate (t.keys.map Quoted.text) ++ "\x7d"

end ModuleTable

end Symbolication
