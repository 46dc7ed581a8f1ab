import Symbolication.Address

/-!
The executables and libraries mapped into a crashed process.
-/

namespace Symbolication

/-- One mapped binary. Symbols are registered under its code file. -/
structure CodeModule where
  codeFile : String
  base : Address
  size : UInt64
  debugFile : Option String := none
  debugIdentifier : Option String := none
  version : Option String := none
  deriving DecidableEq, Repr, Inhabited

namespace CodeModule

def text (m : CodeModule) : String := m.codeFile ++ " @ " ++ m.base.text

instance : ToString CodeModule := ⟨text⟩

end CodeModule

end Symbolication
