import Symbolication.CodeModule
import Symbolication.SymbolName

/-!
The frames of a crashed thread's stack. A stack walker says where a frame's code is; symbols say
which function and source line that is.
-/

namespace Symbolication

/-- How a stack walker came to a frame, least trustworthy first. -/
inductive FrameTrust where
  | none
  | scan
  | cfiScan
  | framePointer
  | cfi
  | prewalked
  | context
  deriving DecidableEq, Repr, Ord, Inhabited

structure StackFrame where
  instruction : Address
  codeModule : Option CodeModule := none
  functionName : Option SymbolName := none
  functionBase : Option Address := none
  sourceFile : Option String := none
  sourceLine : Option UInt32 := none
  sourceLineBase : Option Address := none
  trust : FrameTrust := .none
  deriving DecidableEq, Repr

namespace StackFrame

/-- How far the instruction lies above the base of the frame's module, if it does. -/
def moduleOffset? (f : StackFrame) : Option UInt64 :=
  f.codeModule.bind fun m => f.instruction.offsetFrom? m.base

def isSymbolicated (f : StackFrame) : Bool := f.functionName.isSome

end StackFrame

end Symbolication
